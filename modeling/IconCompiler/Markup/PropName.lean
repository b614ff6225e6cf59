import IconCompiler.Naming

/-!
# Property names of attributes

The names under which attributes are passed to a component. Data attributes and `style` keep their
names, a fixed table renames some and keeps the mixed case of others, and the rest are camel-cased.
-/

namespace IconCompiler.Markup

/-- Attribute names whose property name does not follow the general rule. -/
def renamedAttributes : List (String × String) := [
  ("class", "className"), ("for", "htmlFor"), ("tabindex", "tabIndex"),
  ("xlink:href", "xlinkHref"), ("xlink:title", "xlinkTitle"), ("xlink:role", "xlinkRole"),
  ("xlink:show", "xlinkShow"), ("xlink:actuate", "xlinkActuate"),
  ("xlink:arcrole", "xlinkArcrole"), ("xlink:type", "xlinkType"), ("xml:base", "xmlBase"),
  ("xml:lang", "xmlLang"), ("xml:space", "xmlSpace"), ("xmlns:xlink", "xmlnsXlink")]

/-- Attribute names that are written with capitals inside and keep them. -/
def mixedCaseAttributes : List String := [
  "allowReorder", "attributeName", "attributeType", "autoReverse", "baseFrequency", "calcMode",
  "clipPathUnits", "diffuseConstant", "edgeMode", "filterUnits", "gradientTransform",
  "gradientUnits", "kernelMatrix", "kernelUnitLength", "keyPoints", "keySplines", "keyTimes",
  "lengthAdjust", "limitingConeAngle", "markerHeight", "markerUnits", "markerWidth",
  "maskContentUnits", "maskUnits", "numOctaves", "pathLength", "patternContentUnits",
  "patternTransform", "patternUnits", "pointsAtX", "pointsAtY", "pointsAtZ", "preserveAlpha",
  "preserveAspectRatio", "primitiveUnits", "refX", "refY", "repeatCount", "repeatDur",
  "specularConstant", "specularExponent", "spreadMethod", "startOffset", "stdDeviation",
  "stitchTiles", "surfaceScale", "systemLanguage", "tableValues", "targetX", "targetY",
  "textLength", "viewBox", "xChannelSelector", "yChannelSelector", "zoomAndPan"]

/-- Whether an attribute is passed under its own name: data attributes, and `style`, whose value is
    an object already. -/
def keepsName (name : String) : Bool :=
  ['d', 'a', 't', 'a', '-'].isPrefixOf name.toList || name = "style"

/-- The property name of an attribute. -/
def propName (name : String) : String :=
  if keepsName name || mixedCaseAttributes.contains name then name
  else
    match renamedAttributes.lookup name with
    | some target => target
    | none => Naming.camelCase name

end IconCompiler.Markup
