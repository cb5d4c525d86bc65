import SpecVerdict.Text.Basic
import SpecVerdict.Xml.Name

namespace SpecVerdict

inductive XmlNode where
  | text (chars : Text)
  | element (name : XmlName) (attributes : List (XmlName × String)) (content : List XmlNode)
  deriving Repr

namespace XmlNode

def name : XmlNode → XmlName
  | .text _ => ⟨"", ""⟩
  | .element name _ _ => name

def isElement : XmlNode → Bool
  | .text _ => false
  | .element .. => true

def content : XmlNode → List XmlNode
  | .text _ => []
  | .element _ _ content => content

def children (n : XmlNode) : List XmlNode := n.content.filter isElement

def value? (n : XmlNode) (key : String) : Option String :=
  match n with
  | .text _ => none
  | .element _ attributes _ => (attributes.find? (·.1 == ⟨"", key⟩)).map (·.2)

/-- The value of an attribute; an absent one is empty. -/
def value (n : XmlNode) (key : String) : String := (n.value? key).getD ""

/-- The value of an attribute that is there and not empty. -/
def filled? (n : XmlNode) (key : String) : Option String :=
  (n.value? key).filter (· != "")

def isNamed (key : String) (n : XmlNode) : Bool := n.isElement && n.name == ⟨"", key⟩

def childAt? (n : XmlNode) (name : XmlName) : Option XmlNode := n.children.find? (·.name == name)

def child? (n : XmlNode) (key : String) : Option XmlNode := n.childAt? ⟨"", key⟩

def childrenAt (n : XmlNode) (name : XmlName) : List XmlNode := n.children.filter (·.name == name)

def childrenNamed (n : XmlNode) (key : String) : List XmlNode := n.childrenAt ⟨"", key⟩

mutual

def elements : XmlNode → List XmlNode
  | .text _ => []
  | .element name attributes content => .element name attributes content :: elementsOf content

def elementsOf : List XmlNode → List XmlNode
  | [] => []
  | n :: ns => elements n ++ elementsOf ns

end

def elementsAt (n : XmlNode) (name : XmlName) : List XmlNode := n.elements.filter (·.name == name)

def elementsNamed (n : XmlNode) (key : String) : List XmlNode := n.elementsAt ⟨"", key⟩

mutual

def allText : XmlNode → Text
  | .text chars => chars
  | .element _ _ content => textOf content

def textOf : List XmlNode → Text
  | [] => []
  | n :: ns => allText n ++ textOf ns

end

def trimmedText? (n : XmlNode) : Option String :=
  let t := Text.trim n.allText
  if t.isEmpty then none else some (String.ofList t)

def leadingText (n : XmlNode) : Text := textOf (n.content.takeWhile (!·.isElement))

end XmlNode

def elementText? (n : Option XmlNode) : Option String := n.bind (·.trimmedText?)

end SpecVerdict
