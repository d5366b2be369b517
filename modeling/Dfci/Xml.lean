import Dfci.Base

/-! # XML trees

`XmlTreeLib` and `XmlTreeQueryLib` are not part of this repository. A parsed document is a tree of
named nodes, and the two queries the managers use return the first match. -/

namespace Dfci

inductive XmlNode where
  | node (declaration : Bool) (name value : AsciiString) (attributes : List (AsciiString × AsciiString))
      (children : List XmlNode)

namespace XmlNode

/-- `XmlDeclaration.Declaration != NULL` -/
def declaration : XmlNode → Bool
  | .node declaration _ _ _ _ => declaration

def name : XmlNode → AsciiString
  | .node _ name _ _ _ => name

def value : XmlNode → AsciiString
  | .node _ _ value _ _ => value

/-- The text of an element. The parser leaves NULL for an element without text. -/
def text (node : XmlNode) : Option AsciiString :=
  if node.value.chars = [] then none else some node.value

def attributes : XmlNode → List (AsciiString × AsciiString)
  | .node _ _ _ attributes _ => attributes

def children : XmlNode → List XmlNode
  | .node _ _ _ _ children => children

/-- `FindFirstChildNodeByName` -/
def findFirstChildNodeByName (parent : XmlNode) (name : AsciiString) : Option XmlNode :=
  parent.children.find? (fun child => child.name = name)

/-- `FindFirstAttributeByName`, as the attribute's value -/
def findFirstAttributeByName (node : XmlNode) (name : AsciiString) : Option AsciiString :=
  (node.attributes.find? (fun pair => pair.1 = name)).map Prod.snd

/-- A node with text and no attributes or children, as `<Id>` and `<PMask>` are. -/
def leaf (name value : AsciiString) : XmlNode :=
  .node false name value [] []

/-- A number in a document that is at most `MAX_UINT32`. -/
theorem number_lt (node : XmlNode) (small : ¬ 0xFFFFFFFF < node.value.decimalToUintn) :
    node.value.decimalToUintn < 2 ^ 32 := by
  omega

/-- The lowest supported version never moves above a version that passed the checks. -/
theorem lsv_le {lsv : Nat} (node lsvNode : XmlNode) (older : ¬ node.value.decimalToUintn < lsv)
    (above : ¬ node.value.decimalToUintn < lsvNode.value.decimalToUintn) :
    max lsv lsvNode.value.decimalToUintn ≤ node.value.decimalToUintn :=
  Nat.max_le_of_le_of_le (Nat.le_of_not_lt older) (Nat.le_of_not_lt above)

end XmlNode

end Dfci
