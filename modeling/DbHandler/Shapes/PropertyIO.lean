import DbHandler.Foundation.Forest
import DbHandler.Foundation.Scanning
import DbHandler.Interface

namespace DbHandler.Shapes

open Foundation Foundation.Scanning

/-- An element of a `wxXmlNode` tree; its content is that of its text node. -/
structure Element where
  name : Text
  attributes : List (Text × Text) := []
  content : Text := []
  deriving DecidableEq, Repr

def Element.attribute (e : Element) (name : Text) : Option Text := e.attributes.lookup name

structure Colour where
  red : ℕ
  green : ℕ
  blue : ℕ
  alpha : ℕ
  deriving DecidableEq, Repr

/-- The data types that have a handler in `m_mapPropertyIOHandlers`, those of real numbers, fonts and objects apart. -/
inductive DataType
  | string
  | long
  | int
  | bool
  | point
  | size
  | colour
  | pen
  | brush
  | arraystring
  | arrayint
  | arraylong
  deriving DecidableEq, Repr

def DataType.name : DataType → Text
  | .string => "string".toList
  | .long => "long".toList
  | .int => "int".toList
  | .bool => "bool".toList
  | .point => "point".toList
  | .size => "size".toList
  | .colour => "colour".toList
  | .pen => "pen".toList
  | .brush => "brush".toList
  | .arraystring => "arraystring".toList
  | .arrayint => "arrayint".toList
  | .arraylong => "arraylong".toList

inductive Value
  | string (t : Text)
  | long (n : ℤ)
  | int (n : ℤ)
  | bool (b : Bool)
  | point (x y : ℤ)
  | size (x y : ℤ)
  | colour (c : Colour)
  | pen (c : Colour) (width style : ℤ)
  | brush (c : Colour) (style : ℤ)
  | arraystring (ts : List Text)
  | arrayint (ns : List ℤ)
  | arraylong (ns : List ℤ)
  deriving DecidableEq, Repr

namespace PropertyIO

def FitsLong (n : ℤ) : Prop := -2 ^ 63 ≤ n ∧ n < 2 ^ 63

def FitsInt (n : ℤ) : Prop := -2 ^ 31 ≤ n ∧ n < 2 ^ 31

instance (n : ℤ) : Decidable (FitsLong n) := inferInstanceAs (Decidable (_ ∧ _))

instance (n : ℤ) : Decidable (FitsInt n) := inferInstanceAs (Decidable (_ ∧ _))

/-- `xsLongPropIO::FromString`: a text that is no number leaves the zero. -/
def longFromString (t : Text) : ℤ := ((whole t).filter fun n => FitsLong n).getD 0

def toInt (n : ℤ) : ℤ := Int.bmod n (2 ^ 32)

def intFromString (t : Text) : ℤ := toInt (longFromString t)

def boolToString (b : Bool) : Text := ofInt (if b then 1 else 0)

def boolFromString (t : Text) : Bool := longFromString t = 1

def pairToString (x y : ℤ) : Text := [','].intercalate [ofInt x, ofInt y]

def pointFromString (t : Text) : ℤ × ℤ := ((scanAll ',' 2 t).getD 0 0, (scanAll ',' 2 t).getD 1 0)

def channel (n : ℤ) : ℕ := (n % 256).toNat

def colourToString (c : Colour) : Text := [','].intercalate [ofInt c.red, ofInt c.green, ofInt c.blue, ofInt c.alpha]

def colourFromString (t : Text) : Colour where
  red := channel ((scanAll ',' 4 t).getD 0 0)
  green := channel ((scanAll ',' 4 t).getD 1 0)
  blue := channel ((scanAll ',' 4 t).getD 2 0)
  alpha := if (scanAll ',' 4 t).length = 3 then 255 else channel ((scanAll ',' 4 t).getD 3 0)

/-- `GetNextToken` gives an empty text when there is no token left. -/
def token (t : Text) (i : ℕ) : Text := (tokens ' ' t).getD i []

def penToString (c : Colour) (width style : ℤ) : Text :=
  [' '].intercalate [colourToString c, ofInt width, ofInt style]

def brushToString (c : Colour) (style : ℤ) : Text := [' '].intercalate [colourToString c, ofInt style]

def item : Text := "item".toList

def items (below : Forest Element) : List Text := (below.roots.filter (·.name = item)).map (·.content)

end PropertyIO

open PropertyIO

namespace Value

def dataType : Value → DataType
  | .string _ => .string
  | .long _ => .long
  | .int _ => .int
  | .bool _ => .bool
  | .point _ _ => .point
  | .size _ _ => .size
  | .colour _ => .colour
  | .pen _ _ _ => .pen
  | .brush _ _ => .brush
  | .arraystring _ => .arraystring
  | .arrayint _ => .arrayint
  | .arraylong _ => .arraylong

/-- An array is written as a node for each item, everything else as one text. -/
def toString : Value → Text ⊕ List Text
  | .string t => .inl t
  | .long n => .inl (ofInt n)
  | .int n => .inl (ofInt n)
  | .bool b => .inl (boolToString b)
  | .point x y => .inl (pairToString x y)
  | .size x y => .inl (pairToString x y)
  | .colour c => .inl (colourToString c)
  | .pen c width style => .inl (penToString c width style)
  | .brush c style => .inl (brushToString c style)
  | .arraystring ts => .inr ts
  | .arrayint ns => .inr (ns.map ofInt)
  | .arraylong ns => .inr (ns.map ofInt)

/-- The handler of the value's data type reads a node into it. -/
def read (content : Text) (below : Forest Element) : Value → Value
  | .string _ => .string content
  | .long _ => .long (longFromString content)
  | .int _ => .int (intFromString content)
  | .bool _ => .bool (boolFromString content)
  | .point _ _ => .point (pointFromString content).1 (pointFromString content).2
  | .size _ _ => .size (pointFromString content).1 (pointFromString content).2
  | .colour _ => .colour (colourFromString content)
  | .pen _ _ _ =>
    .pen (colourFromString (token content 0)) (toInt (longFromString (token content 1)))
      (toInt (longFromString (token content 2)))
  | .brush _ _ => .brush (colourFromString (token content 0)) (toInt (longFromString (token content 1)))
  | .arraystring _ => .arraystring (items below)
  | .arrayint _ => .arrayint ((items below).map intFromString)
  | .arraylong _ => .arraylong ((items below).map longFromString)

end Value

/-- `xsProperty`; without a default value its text is empty. -/
structure Property where
  fieldName : Text
  value : Value
  defaultValueStr : Text := []
  serialize : Bool := true
  deriving DecidableEq, Repr

namespace Property

def propertyName : Text := "property".toList

def element (p : Property) (content : Text) : Element where
  name := propertyName
  attributes := [("name".toList, p.fieldName), ("type".toList, p.value.dataType.name)]
  content := content

def itemNodes : List Text → Forest Element
  | [] => .nil
  | t :: ts => .node { name := item, content := t } .nil (itemNodes ts)

/-- A default value is not written, and an empty array never is. -/
def write (p : Property) : Forest Element :=
  match p.value.toString with
  | .inl val => if val ≠ p.defaultValueStr then .single (p.element val) .nil else .nil
  | .inr texts => if texts ≠ [] then .single (p.element []) (itemNodes texts) else .nil

def read (content : Text) (below : Forest Element) (p : Property) : Property :=
  { p with value := p.value.read content below }

end Property

namespace Serializable

/-- `xsSerializable::Serialize`, what it adds to the node of the object. -/
def serialize : List Property → Forest Element
  | [] => .nil
  | p :: properties => if p.serialize then p.write.append (serialize properties) else serialize properties

/-- `GetProperty` and the handler's `Read`: the first property of the name is the one. -/
def readProperty (name content : Text) (below : Forest Element) : List Property → List Property
  | [] => []
  | p :: properties =>
    if p.fieldName = name then p.read content below :: properties
    else p :: readProperty name content below properties

/-- `xsSerializable::Deserialize`: a node without a name is taken for the property before it. -/
def deserialize : Forest Element → Text → List Property → List Property
  | .nil, _, properties => properties
  | .node e below next, propName, properties =>
    if e.name = Property.propertyName then
      deserialize next ((e.attribute "name".toList).getD propName)
        (readProperty ((e.attribute "name".toList).getD propName) e.content below properties)
    else deserialize next propName properties

/-- `AddProperty`: a second property of a name is not taken. -/
def addProperty (properties : List Property) (p : Property) : List Property :=
  if p.fieldName ∈ properties.map (·.fieldName) then properties else properties ++ [p]

/-- The properties of an object after `MarkSerializableDataMembers`. -/
def marked (declared : List Property) : List Property := declared.foldl addProperty []

end Serializable

end DbHandler.Shapes
