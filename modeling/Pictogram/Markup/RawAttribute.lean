import Pictogram.Markup.Error
import Pictogram.Text.Blank
import Pictogram.Text.Utf8

/-!
The attribute list of a tag as it is written: keys and the texts between their quotes, up to the
first fault.
-/

namespace Pictogram.Markup

/-- A key with the text between its quotes. -/
structure RawAttribute where
  key : String
  raw : String
  deriving DecidableEq, Repr, Inhabited

/-- The front of an attribute: the key, where it starts, and where the text behind its equals sign
goes on. -/
structure Key where
  name : List Char
  start : Nat
  position : Nat
  rest : List Char

/-- Reads a key and its equals sign from a text that starts at the given position with something
other than space. Whatever the first character is, it belongs to the key. -/
def readKey (position : Nat) (c : Char) (cs : List Char) : Except AttributeFault Key :=
  let name := c :: cs.takeWhile fun d => d != '=' && !Text.isSpace d
  let tail := cs.dropWhile fun d => d != '=' && !Text.isSpace d
  let next := position + Text.byteLength name + Text.byteLength (tail.takeWhile Text.isSpace)
  match tail.dropWhile Text.isSpace with
  | [] => .error (.missingEquals next)
  | d :: rest =>
    if d = '=' then .ok ⟨name, position, next + 1, rest⟩ else .error (.missingEquals next)

/-- Reads a quoted value from a text that starts at the given position. The answer holds the text
between the quotes, the position behind them and the text there. -/
def readValue (position : Nat) (cs : List Char) :
    Except AttributeFault (List Char × Nat × List Char) :=
  let start := position + Text.byteLength (cs.takeWhile Text.isSpace)
  match cs.dropWhile Text.isSpace with
  | [] => .error (.missingValue start)
  | quote :: tail =>
    if quote = '"' || quote = '\'' then
      let raw := tail.takeWhile (· != quote)
      match tail.dropWhile (· != quote) with
      | [] => .error (.unclosedValue (start + 1 + Text.byteLength raw) quote)
      | _ :: rest => .ok (raw, start + 1 + Text.byteLength raw + 1, rest)
    else .error (.unquotedValue start)

theorem length_readKey {position : Nat} {c : Char} {cs : List Char} {key : Key}
    (h : readKey position c cs = .ok key) : key.rest.length < cs.length := by
  simp only [readKey] at h
  split at h
  · simp at h
  next d rest hd =>
    have h1 := Text.length_dropWhile_le Text.isSpace
      (cs.dropWhile fun d => d != '=' && !Text.isSpace d)
    have h2 := Text.length_dropWhile_le (fun d => d != '=' && !Text.isSpace d) cs
    split at h
    · obtain rfl := Except.ok.inj h
      rw [hd] at h1
      simp at h1 ⊢
      omega
    · simp at h

theorem length_readValue {position next : Nat} {cs raw rest : List Char}
    (h : readValue position cs = .ok (raw, next, rest)) : rest.length < cs.length := by
  simp only [readValue] at h
  have h1 := Text.length_dropWhile_le Text.isSpace cs
  split at h
  · simp at h
  next quote tail hq =>
    rw [hq] at h1
    have h2 := Text.length_dropWhile_le (· != quote) tail
    split at h
    · split at h
      · simp at h
      next d r hr =>
        rw [hr] at h2
        simp at h h1 h2
        obtain ⟨_, _, rfl⟩ := h
        omega
    · simp at h

/-- Reads an attribute list from a text that starts at the given position; `seen` holds the keys
before it with the positions where they start. The attributes up to the first fault are read even
if there is one. -/
def readAttributes (position : Nat) (seen : List (List Char × Nat)) (cs : List Char) :
    List RawAttribute × Option AttributeFault :=
  match _h : cs.dropWhile Text.isSpace with
  | [] => ([], none)
  | c :: tail =>
    match _hk : readKey (position + Text.byteLength (cs.takeWhile Text.isSpace)) c tail with
    | .error fault => ([], some fault)
    | .ok key =>
      match seen.lookup key.name with
      | some previous => ([], some (.duplicate key.start previous))
      | none =>
        match _hv : readValue key.position key.rest with
        | .error fault => ([], some fault)
        | .ok (raw, next, rest) =>
          let (attributes, fault?) := readAttributes next (seen ++ [(key.name, key.start)]) rest
          (⟨.ofList key.name, .ofList raw⟩ :: attributes, fault?)
termination_by cs.length
decreasing_by
  have h1 := Text.length_dropWhile_le Text.isSpace cs
  have h2 := length_readKey _hk
  have h3 := length_readValue _hv
  rw [_h] at h1
  simp at h1
  omega

end Pictogram.Markup
