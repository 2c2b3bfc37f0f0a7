import Mathlib.Data.List.TakeWhile
import Pictogram.Markup.Cleanup
import Pictogram.Proofs.Text.Span

/-!
Attribute lists: one attribute at a time is read from a text, and a list that is written with double
quotes is read as it was, unless one of its values holds a double quote.
-/

namespace Pictogram.Markup

/-- A text that is read as the key of an attribute. -/
def IsKey (key : List Char) : Prop :=
  ∃ c tail, key = c :: tail ∧ Text.isSpace c = false ∧ ∀ d ∈ tail, d ≠ '=' ∧ Text.isSpace d = false

/-- Keys that can be read one after the other behind the keys already seen. -/
def WellKeyed (seen : List (List Char × Nat)) (attributes : List RawAttribute) : Prop :=
  (attributes.map (·.key.toList)).Nodup ∧
    ∀ a ∈ attributes, IsKey a.key.toList ∧ seen.lookup a.key.toList = none

/-- Whether no value holds a double quote. -/
def Unquoted (attributes : List RawAttribute) : Prop :=
  ∀ a ∈ attributes, '"' ∉ a.raw.toList

private theorem lookup_append_eq_none_iff {seen : List (List Char × Nat)} {key key' : List Char}
    {start : Nat} :
    (seen ++ [(key, start)]).lookup key' = none ↔ seen.lookup key' = none ∧ key' ≠ key := by
  simp only [List.lookup_eq_none_iff, List.mem_append, List.mem_singleton]
  constructor
  · intro h
    refine ⟨fun p hp => h p (.inl hp), ?_⟩
    rintro rfl
    simpa using h (key', start) (.inr rfl)
  · rintro ⟨h, hne⟩ p (hp | rfl)
    · exact h p hp
    · simpa using hne

theorem readAttributes_spaces {position : Nat} {seen : List (List Char × Nat)} {cs : List Char}
    (h : ∀ c ∈ cs, Text.isSpace c) : readAttributes position seen cs = ([], none) := by
  rw [readAttributes]
  split
  · rfl
  next c tail hd =>
    rw [List.dropWhile_eq_nil_iff.2 h] at hd
    cases hd

theorem readKey_append {c : Char} {tail : List Char} (position : Nat)
    (htail : ∀ d ∈ tail, d ≠ '=' ∧ Text.isSpace d = false) (rest : List Char) :
    ∃ next, readKey position c (tail ++ '=' :: rest) = .ok ⟨c :: tail, position, next, rest⟩ := by
  have hrun : ∀ d ∈ tail, (d != '=' && !Text.isSpace d) = true := by
    intro d hd
    simpa using htail d hd
  refine ⟨position + Text.byteLength (c :: tail) + 1, ?_⟩
  simp only [readKey]
  rw [Text.takeWhile_run hrun (by simp), Text.dropWhile_run hrun (by simp)]
  rfl

theorem readValue_append {quote : Char} {raw : List Char} (position : Nat)
    (hquote : quote = '"' ∨ quote = '\'') (hraw : quote ∉ raw) (rest : List Char) :
    ∃ next, readValue position (quote :: (raw ++ quote :: rest)) = .ok (raw, next, rest) := by
  have hrun := Text.run_of_not_mem hraw
  have hspace : Text.isSpace quote = false := by
    rcases hquote with rfl | rfl <;> rfl
  refine ⟨position + 1 + Text.byteLength raw + 1, ?_⟩
  simp only [readValue]
  rw [List.dropWhile_cons_of_neg (by simp [hspace]), List.takeWhile_cons_of_neg (by simp [hspace])]
  have hq : (quote = '"' || quote = '\'') = true := by simpa using hquote
  simp only [hq, if_true]
  rw [Text.dropWhile_run hrun (by simp), Text.takeWhile_run hrun (by simp)]
  rfl

/-- An attribute behind spaces is read in front of the list that follows it. -/
theorem readAttributes_cons {seen : List (List Char × Nat)} {blanks key raw : List Char}
    {quote : Char} (position : Nat) (hblanks : ∀ c ∈ blanks, Text.isSpace c) (hkey : IsKey key)
    (hquote : quote = '"' ∨ quote = '\'') (hraw : quote ∉ raw) (hnew : seen.lookup key = none)
    (rest : List Char) :
    ∃ start next, readAttributes position seen
        (blanks ++ (key ++ '=' :: quote :: (raw ++ quote :: rest))) =
      (⟨.ofList key, .ofList raw⟩ :: (readAttributes next (seen ++ [(key, start)]) rest).1,
        (readAttributes next (seen ++ [(key, start)]) rest).2) := by
  obtain ⟨c, tail, rfl, hc, htail⟩ := hkey
  have hdrop : (blanks ++ (c :: tail ++ '=' :: quote :: (raw ++ quote :: rest))).dropWhile
      Text.isSpace = c :: (tail ++ '=' :: quote :: (raw ++ quote :: rest)) := by
    rw [List.cons_append, Text.dropWhile_run hblanks hc]
  generalize hcs : blanks ++ (c :: tail ++ '=' :: quote :: (raw ++ quote :: rest)) = cs at hdrop
  obtain ⟨after, hread⟩ := readKey_append (c := c)
    (position + Text.byteLength (cs.takeWhile Text.isSpace)) htail (quote :: (raw ++ quote :: rest))
  obtain ⟨next, hvalue⟩ := readValue_append after hquote hraw rest
  refine ⟨position + Text.byteLength (cs.takeWhile Text.isSpace), next, ?_⟩
  rw [readAttributes]
  split
  next hnil =>
    rw [hdrop] at hnil
    cases hnil
  next d more hd =>
    obtain ⟨rfl, rfl⟩ := List.cons.inj (hdrop.symm.trans hd)
    split
    next fault hk =>
      rw [hread] at hk
      cases hk
    next key' hk =>
      obtain rfl := Except.ok.inj (hread.symm.trans hk)
      simp only [hnew]
      split
      next fault hv =>
        rw [hvalue] at hv
        cases hv
      next raw' next' rest' hv =>
        obtain ⟨rfl, he⟩ := Prod.mk.inj (Except.ok.inj (hvalue.symm.trans hv))
        obtain ⟨rfl, rfl⟩ := Prod.mk.inj he
        rfl

theorem of_readKey {position : Nat} {c : Char} {cs : List Char} {key : Key}
    (h : readKey position c cs = .ok key) :
    ∃ tail gap, key.name = c :: tail ∧ (∀ d ∈ tail, d ≠ '=' ∧ Text.isSpace d = false) ∧
      (∀ d ∈ gap, Text.isSpace d) ∧ cs = tail ++ (gap ++ '=' :: key.rest) := by
  simp only [readKey] at h
  split at h
  · cases h
  next d rest hd =>
    split at h
    next heq =>
      obtain rfl := Except.ok.inj h
      subst heq
      obtain ⟨gap, hgap, hspaces, -⟩ := Text.dropWhile_eq_cons hd
      refine ⟨_, gap, rfl, ?_, hspaces, ?_⟩
      · intro e he
        simpa using List.mem_takeWhile_imp he
      · rw [← hgap, List.takeWhile_append_dropWhile]
    next => cases h

theorem of_readValue {position next : Nat} {cs raw rest : List Char}
    (h : readValue position cs = .ok (raw, next, rest)) :
    ∃ gap quote, (∀ d ∈ gap, Text.isSpace d) ∧ (quote = '"' ∨ quote = '\'') ∧ quote ∉ raw ∧
      cs = gap ++ quote :: (raw ++ quote :: rest) := by
  simp only [readValue] at h
  split at h
  · cases h
  next quote tail hq =>
    split at h
    next hquote =>
      split at h
      · cases h
      next d more hd =>
        obtain ⟨rfl, he⟩ := Prod.mk.inj (Except.ok.inj h)
        obtain ⟨-, rfl⟩ := Prod.mk.inj he
        obtain ⟨gap, rfl, hspaces, -⟩ := Text.dropWhile_eq_cons hq
        obtain ⟨raw, rfl, hraw, hstop⟩ := Text.dropWhile_eq_cons hd
        obtain rfl : d = quote := by simpa using hstop
        have hmem : d ∉ raw := fun hm => by simpa using hraw d hm
        refine ⟨gap, d, hspaces, by simpa using hquote, ?_, ?_⟩
        · rwa [Text.takeWhile_run hraw hstop]
        · rw [Text.takeWhile_run hraw hstop]
    next => cases h

/-- Where an attribute was read, the text has its key and its quoted value, and the list goes on
behind them. -/
theorem of_readAttributes_cons {position : Nat} {seen : List (List Char × Nat)} {cs : List Char}
    {a : RawAttribute} {attributes : List RawAttribute} {fault? : Option AttributeFault}
    (h : readAttributes position seen cs = (a :: attributes, fault?)) :
    ∃ blanks key gap gap' quote raw rest start next,
      cs = blanks ++ (key ++ (gap ++ '=' :: (gap' ++ quote :: (raw ++ quote :: rest)))) ∧
      (∀ c ∈ blanks, Text.isSpace c) ∧ IsKey key ∧ (∀ c ∈ gap, Text.isSpace c) ∧
      (∀ c ∈ gap', Text.isSpace c) ∧ (quote = '"' ∨ quote = '\'') ∧ quote ∉ raw ∧
      seen.lookup key = none ∧ a = ⟨.ofList key, .ofList raw⟩ ∧
      readAttributes next (seen ++ [(key, start)]) rest = (attributes, fault?) := by
  rw [readAttributes] at h
  split at h
  · cases h
  next c tail hd =>
    obtain ⟨blanks, rfl, hblanks, hc⟩ := Text.dropWhile_eq_cons hd
    split at h
    · cases h
    next key hk =>
      obtain ⟨keyTail, gap, hname, htail, hgap, rfl⟩ := of_readKey hk
      split at h
      · cases h
      next hnew =>
        split at h
        · cases h
        next raw next rest hv =>
          obtain ⟨gap', quote, hgap', hquote, hraw, hrest⟩ := of_readValue hv
          obtain ⟨hattributes, rfl⟩ := Prod.mk.inj h
          obtain ⟨rfl, rfl⟩ := List.cons.inj hattributes
          refine ⟨blanks, key.name, gap, gap', quote, raw, rest, key.start, next, ?_, hblanks,
            ⟨c, keyTail, hname, hc, htail⟩, hgap, hgap', hquote, hraw, hnew, rfl, rfl⟩
          rw [hname, hrest]
          simp

/-- A list without attributes and faults is nothing but space. -/
theorem spaces_of_readAttributes_nil {position : Nat} {seen : List (List Char × Nat)}
    {cs : List Char} (h : readAttributes position seen cs = ([], none)) :
    ∀ c ∈ cs, Text.isSpace c := by
  rw [readAttributes] at h
  split at h
  next hd => exact List.dropWhile_eq_nil_iff.1 hd
  next c tail hd =>
    split at h
    · cases h
    · split at h
      · cases h
      · split at h <;> cases h

theorem wellKeyed_nil (seen : List (List Char × Nat)) : WellKeyed seen [] :=
  ⟨List.nodup_nil, by simp⟩

theorem wellKeyed_cons_iff {seen : List (List Char × Nat)} {a : RawAttribute}
    {attributes : List RawAttribute} (start : Nat) :
    WellKeyed seen (a :: attributes) ↔
      IsKey a.key.toList ∧ seen.lookup a.key.toList = none ∧
        WellKeyed (seen ++ [(a.key.toList, start)]) attributes := by
  simp only [WellKeyed, List.map_cons, List.nodup_cons, List.mem_map, List.forall_mem_cons,
    lookup_append_eq_none_iff]
  constructor
  · rintro ⟨⟨hnew, hnodup⟩, ⟨hkey, hseen⟩, hall⟩
    refine ⟨hkey, hseen, hnodup, fun b hb => ⟨(hall b hb).1, (hall b hb).2, ?_⟩⟩
    intro heq
    exact hnew ⟨b, hb, heq⟩
  · rintro ⟨hkey, hseen, hnodup, hall⟩
    refine ⟨⟨?_, hnodup⟩, ⟨hkey, hseen⟩, fun b hb => ⟨(hall b hb).1, (hall b hb).2.1⟩⟩
    rintro ⟨b, hb, heq⟩
    exact (hall b hb).2.2 heq

theorem wellKeyed_of_readAttributes {position : Nat} {seen : List (List Char × Nat)}
    {cs : List Char} {attributes : List RawAttribute} {fault? : Option AttributeFault}
    (h : readAttributes position seen cs = (attributes, fault?)) : WellKeyed seen attributes := by
  induction attributes generalizing position seen cs with
  | nil => exact wellKeyed_nil seen
  | cons a attributes ih =>
    obtain ⟨blanks, key, gap, gap', quote, raw, rest, start, next, -, -, hkey, -, -, -, -, hnew,
      rfl, hrest⟩ := of_readAttributes_cons h
    refine (wellKeyed_cons_iff start).2 ⟨?_, ?_, ?_⟩
    · simpa using hkey
    · simpa using hnew
    · simpa using ih hrest

/-- A written list is read as it was, with any spaces behind it. -/
theorem readAttributes_written {seen : List (List Char × Nat)} {attributes : List RawAttribute}
    {spaces : List Char} (position : Nat) (hkeys : WellKeyed seen attributes)
    (hquotes : Unquoted attributes) (hspaces : ∀ c ∈ spaces, Text.isSpace c) :
    readAttributes position seen (attributes.flatMap (·.chars) ++ spaces) = (attributes, none) := by
  induction attributes generalizing position seen with
  | nil => exact readAttributes_spaces hspaces
  | cons a attributes ih =>
    obtain ⟨hkey, hnew, -⟩ := (wellKeyed_cons_iff 0).1 hkeys
    have hspace : ∀ c ∈ [' '], Text.isSpace c := by decide
    obtain ⟨start, next, hread⟩ := readAttributes_cons position hspace hkey
      (.inl rfl) (hquotes a (by simp)) hnew (attributes.flatMap (·.chars) ++ spaces)
    obtain ⟨-, -, hrest⟩ := (wellKeyed_cons_iff start).1 hkeys
    rw [ih next hrest fun b hb => hquotes b (by simp [hb])] at hread
    rw [List.flatMap_cons, RawAttribute.chars]
    simpa using hread

end Pictogram.Markup
