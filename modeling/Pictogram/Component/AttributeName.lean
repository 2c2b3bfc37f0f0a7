/-!
Attribute names: components spell many drawing attributes in camel case, and the declarations of
the drawing's own namespace are left out of them.
-/

namespace Pictogram.AttributeName

/-- Drawing attributes that components spell differently, each with the component's spelling. -/
def spellings : List (String × String) := [
  ("accent-height", "accentHeight"),
  ("alignment-baseline", "alignmentBaseline"),
  ("arabic-form", "arabicForm"),
  ("baseline-shift", "baselineShift"),
  ("cap-height", "capHeight"),
  ("class", "className"),
  ("clip-path", "clipPath"),
  ("clip-rule", "clipRule"),
  ("color-interpolation", "colorInterpolation"),
  ("color-interpolation-filters", "colorInterpolationFilters"),
  ("color-profile", "colorProfile"),
  ("color-rendering", "colorRendering"),
  ("dominant-baseline", "dominantBaseline"),
  ("enable-background", "enableBackground"),
  ("fill-opacity", "fillOpacity"),
  ("fill-rule", "fillRule"),
  ("flood-color", "floodColor"),
  ("flood-opacity", "floodOpacity"),
  ("font-family", "fontFamily"),
  ("font-size", "fontSize"),
  ("font-size-adjust", "fontSizeAdjust"),
  ("font-stretch", "fontStretch"),
  ("font-style", "fontStyle"),
  ("font-variant", "fontVariant"),
  ("font-weight", "fontWeight"),
  ("for", "htmlFor"),
  ("glyph-name", "glyphName"),
  ("glyph-orientation-horizontal", "glyphOrientationHorizontal"),
  ("glyph-orientation-vertical", "glyphOrientationVertical"),
  ("horiz-adv-x", "horizAdvX"),
  ("horiz-origin-x", "horizOriginX"),
  ("image-rendering", "imageRendering"),
  ("letter-spacing", "letterSpacing"),
  ("lighting-color", "lightingColor"),
  ("marker-end", "markerEnd"),
  ("marker-mid", "markerMid"),
  ("marker-start", "markerStart"),
  ("overline-position", "overlinePosition"),
  ("overline-thickness", "overlineThickness"),
  ("paint-order", "paintOrder"),
  ("panose-1", "panose1"),
  ("pointer-events", "pointerEvents"),
  ("rendering-intent", "renderingIntent"),
  ("shape-rendering", "shapeRendering"),
  ("stop-color", "stopColor"),
  ("stop-opacity", "stopOpacity"),
  ("strikethrough-position", "strikethroughPosition"),
  ("strikethrough-thickness", "strikethroughThickness"),
  ("stroke-dasharray", "strokeDasharray"),
  ("stroke-dashoffset", "strokeDashoffset"),
  ("stroke-linecap", "strokeLinecap"),
  ("stroke-linejoin", "strokeLinejoin"),
  ("stroke-miterlimit", "strokeMiterlimit"),
  ("stroke-opacity", "strokeOpacity"),
  ("stroke-width", "strokeWidth"),
  ("tabindex", "tabIndex"),
  ("text-anchor", "textAnchor"),
  ("text-decoration", "textDecoration"),
  ("text-rendering", "textRendering"),
  ("underline-position", "underlinePosition"),
  ("underline-thickness", "underlineThickness"),
  ("unicode-bidi", "unicodeBidi"),
  ("unicode-range", "unicodeRange"),
  ("units-per-em", "unitsPerEm"),
  ("v-alphabetic", "vAlphabetic"),
  ("v-hanging", "vHanging"),
  ("v-ideographic", "vIdeographic"),
  ("v-mathematical", "vMathematical"),
  ("vector-effect", "vectorEffect"),
  ("vert-adv-y", "vertAdvY"),
  ("vert-origin-x", "vertOriginX"),
  ("vert-origin-y", "vertOriginY"),
  ("word-spacing", "wordSpacing"),
  ("writing-mode", "writingMode"),
  ("x-height", "xHeight"),
  ("xlink:actuate", "xlinkActuate"),
  ("xlink:arcrole", "xlinkArcrole"),
  ("xlink:href", "xlinkHref"),
  ("xlink:role", "xlinkRole"),
  ("xlink:show", "xlinkShow"),
  ("xlink:title", "xlinkTitle"),
  ("xlink:type", "xlinkType"),
  ("xml:base", "xmlBase"),
  ("xml:lang", "xmlLang"),
  ("xml:space", "xmlSpace"),
  ("xmlns:xlink", "xmlnsXlink")]

/-- The component's spelling of an attribute name; a name without one of its own is kept. -/
def translate (name : String) : String :=
  (spellings.lookup name).getD name

/-- Declarations of the drawing namespace, which no component carries. -/
def isNamespaceDeclaration (name : String) : Bool :=
  name = "xmlns" || name = "xmlns:svg"

end Pictogram.AttributeName
