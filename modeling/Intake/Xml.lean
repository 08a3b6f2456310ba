import Intake.Xml.Token

/-!
# XML documents

A document as a tree: one element, which holds texts and further elements. The tags of
the document are matched by a stack of the elements that are still open.
-/

namespace Intake

/-- A node of a document. -/
inductive Xml where
  | element (name : String) (attributes : List Xml.Attribute) (children : List Xml)
  | text (s : String)
  /-- Characters in which no mark-up was looked for. -/
  | raw (s : String)
  deriving Repr

namespace Xml

/-! ## Reading -/

/-- An element whose closing tag has not come yet; its children stand in reverse. -/
structure Open where
  name : String
  attributes : List Attribute
  children : List Xml

/-- Holds of texts that may stand outside the one element. -/
def isMargin (s : String) : Bool :=
  s.toList.all Token.isSpace

/-- Reads on with the open elements, the innermost first, and the whole element once it
is closed. -/
def ofTokensFrom? (stack : List Open) (whole : Option Xml) : List Token → Option Xml
  | [] => if stack.isEmpty then whole else none
  | .opening name attributes :: ts =>
    if stack.isEmpty && whole.isSome then none
    else ofTokensFrom? (⟨name, attributes, []⟩ :: stack) whole ts
  | .closing name :: ts =>
    match stack with
    | [] => none
    | top :: below =>
      if top.name = name then
        let node := element top.name top.attributes top.children.reverse
        match below with
        | [] => ofTokensFrom? [] (some node) ts
        | next :: rest =>
          ofTokensFrom? ({ next with children := node :: next.children } :: rest) whole ts
      else none
  | .text s :: ts =>
    match stack with
    | [] => if isMargin s then ofTokensFrom? [] whole ts else none
    | top :: below =>
      ofTokensFrom? ({ top with children := .text s :: top.children } :: below) whole ts
  | .raw s :: ts =>
    match stack with
    | [] => none
    | top :: below =>
      ofTokensFrom? ({ top with children := .raw s :: top.children } :: below) whole ts

/-- The document that tokens write. -/
def ofTokens? (ts : List Token) : Option Xml :=
  ofTokensFrom? [] none ts

/-- Reads a document. -/
def read? (bs : Bytes) : Option Xml := do
  ofTokens? (← Token.ofChars? (← Utf8.decode? bs))

/-! ## Names -/

/-- The part of a name after its colon. -/
def localPart (name : String) : String :=
  match (name.toList.dropWhile (· != ':')) with
  | _ :: r => String.ofList r
  | [] => name

/-- The part of a name before its colon. -/
def prefixPart? (name : String) : Option String :=
  let front := name.toList.takeWhile (· != ':')
  if front.length < name.length then some (String.ofList front) else none

/-- Holds if the prefix of a name is one of the given ones, or absent. -/
def hasPrefixIn (known : List String) (name : String) : Bool :=
  match prefixPart? name with
  | some p => known.contains p
  | none => true

/-- The prefixes that attributes declare. -/
def declared (attributes : List Attribute) : List String :=
  (attributes.filter (fun a => prefixPart? a.name == some "xmlns")).map (fun a => localPart a.name)

mutual

/-- Holds if every prefix in a node is declared where it is used. -/
def prefixesDeclared (known : List String) : Xml → Bool
  | element name attributes children =>
    let known := declared attributes ++ known
    hasPrefixIn known name && attributes.all (fun a => hasPrefixIn known a.name)
      && allPrefixesDeclared known children
  | _ => true

/-- Holds if every prefix in some nodes is declared where it is used. -/
def allPrefixesDeclared (known : List String) : List Xml → Bool
  | [] => true
  | x :: xs => prefixesDeclared known x && allPrefixesDeclared known xs

end

/-- Reads a document in which every prefix is declared. -/
def readQualified? (bs : Bytes) : Option Xml := do
  let x ← read? bs
  if prefixesDeclared ["xml", "xmlns"] x then some x else none

/-! ## Access -/

/-- The value of an attribute. -/
def valueOf? (name : String) (attributes : List Attribute) : Option String :=
  (attributes.find? (fun a => a.name == name)).map Attribute.value

/-- The children of an element. -/
def children : Xml → List Xml
  | element _ _ cs => cs
  | _ => []

mutual

/-- The elements of a local name in a node, in document order, with their attributes and
children; those inside one of them are not looked for. -/
def named (name : String) : Xml → List (List Attribute × List Xml)
  | element n as cs => if localPart n = name then [(as, cs)] else allNamed name cs
  | _ => []

/-- The elements of a local name in some nodes. -/
def allNamed (name : String) : List Xml → List (List Attribute × List Xml)
  | [] => []
  | x :: xs => named name x ++ allNamed name xs

end

/-- The texts directly among some nodes. -/
def textAmong : List Xml → String
  | [] => ""
  | .text s :: r => s ++ textAmong r
  | _ :: r => textAmong r

end Xml
end Intake
