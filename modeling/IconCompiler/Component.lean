/-!
# Component modules

The text of the module that defines an icon component, and of the index modules that export
components again. The module takes a size by name or as a number, a color, and any further
attributes of its outer `svg`.
-/

namespace IconCompiler.Component

/-- The named sizes and their pixels, in the order in which they are declared. -/
def sizes : List (String × Nat) :=
  [("xs", 12), ("s", 16), ("m", 20), ("l", 24), ("xl", 32)]

/-- The size of a component that is given none. -/
def defaultSize : String := "m"

/-- The color of a component that is given none. -/
def defaultColor : String := "currentColor"

/-- The view box of the outer `svg` unless another one is asked for. -/
def defaultViewBox : String := "0 0 24 24"

/-- The properties that every component declares, with their types. -/
def declaredProps : List (String × String) :=
  [("id", "string"), ("title", "string"), ("className", "string"), ("role", "string"),
    ("spellCheck", "boolean"), ("tabIndex", "number")]

/-- What a component module is made from. -/
structure Options where
  /-- The component's name, which is also shown to users. -/
  name : String
  /-- The fragment inside the outer `svg`. -/
  fragment : String
  /-- The view box of the outer `svg`. -/
  viewBox : String := defaultViewBox

/-- The type of a size: one of the names, or a number of pixels. -/
def sizeType : String :=
  " | ".intercalate (sizes.map fun s => "'" ++ s.1 ++ "'") ++ " | number"

/-- The named sizes as an object. -/
def sizeTable : String :=
  "\x7b " ++ ", ".intercalate (sizes.map fun s => s.1 ++ ": " ++ toString s.2) ++ " \x7d"

/-- The lines before the component: the import and the types of the properties. -/
def preludeLines : List String :=
  ["import React from 'react';",
    "",
    "interface Props \x7b",
    "    size?: " ++ sizeType ++ ";",
    "    color?: string;",
    "    [key: string]: any;",
    "\x7d",
    "",
    "interface HTMLAttributeProps \x7b"] ++
  declaredProps.map (fun p => "    " ++ p.1 ++ "?: " ++ p.2 ++ ";") ++
  ["\x7d",
    "",
    "const sizes = " ++ sizeTable ++ ";"]

/-- The lines of the function that draws the icon. -/
def functionLines (o : Options) : List String :=
  ["export const " ++ o.name ++
      ": React.FC<HTMLAttributeProps & Props> = (props: Props): JSX.Element => \x7b",
    "    const \x7b color = '" ++ defaultColor ++ "', size = '" ++ defaultSize ++
      "', ...attrs \x7d = props;",
    "    const d = sizes[size] || size;",
    "",
    "    return (",
    "        <svg xmlns='http://www.w3.org/2000/svg' viewBox='" ++ o.viewBox ++
      "' width=\x7bd\x7d height=\x7bd\x7d fill=\x7bcolor\x7d \x7b...attrs\x7d>",
    "            " ++ o.fragment,
    "        </svg>",
    "    )",
    "\x7d;"]

/-- The lines after the function: the shown name, the default properties and the default export. -/
def staticLines (o : Options) : List String :=
  [o.name ++ ".displayName = '" ++ o.name ++ "';",
    o.name ++ ".defaultProps = \x7b",
    "    size: '" ++ defaultSize ++ "',",
    "    color: '" ++ defaultColor ++ "',",
    "\x7d;",
    "",
    "export default " ++ o.name ++ ";"]

/-- The text of a component module. Every line ends with a line feed. -/
def moduleText (o : Options) : String :=
  String.join ((preludeLines ++ functionLines o ++ [""] ++ staticLines o).map (· ++ "\n"))

/-- The line that exports a component again. -/
def exportLine (name : String) : String :=
  "export * from './" ++ name ++ "';"

/-- The text of the index beside a component. -/
def moduleIndex (name : String) : String :=
  exportLine name

/-- The text of the index over all components: one line each, parted by carriage return and line
    feed. -/
def packageIndex (names : List String) : String :=
  "\r\n".intercalate (names.map exportLine)

end IconCompiler.Component
