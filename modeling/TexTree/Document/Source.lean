import TexTree.Document.Tree

/-!
# The source of a document

The source of a node is a text that, when it is interpreted, gives such a node
again, as far as the node remembers how it was written.
-/

namespace TexTree

namespace Tree

/-- The delimiter that closes a formula. -/
def closingDelimiter : String → String
  | "\\(" => "\\)"
  | "\\[" => "\\]"
  | delimiter => delimiter

/-- A text in braces. -/
def inBraces (text : String) : String := "\x7b" ++ text ++ "\x7d"

/-- The command of an element with its arguments, up to the content. -/
def commandSource (data : Node) : String :=
  match Text.afterMark? Token.activeMark data.name with
  | some character => character ++ data.argumentSource
  | none =>
      "\\" ++ data.name ++
        match data.argumentSource.toList.head? with
        | none =>
            match data.contentForm with
            | .braced | .delimited _ => ""
            | _ => " "
        | some first =>
            if Text.isAlphabetic first then " " ++ data.argumentSource else data.argumentSource

/-- The source of an element whose children have the given source. -/
def elementSource (data : Node) (content : String) : String :=
  if data.name == "bgroup" then inBraces content
  else if data.name == "begingroup" then "\\begingroup " ++ content ++ "\\endgroup "
  else if data.name == "par" then content ++ "\n\n"
  else
    match data.mode with
    | .opening =>
        if (data.name == "math" || data.name == "displaymath") && !data.argumentSource.isEmpty then
          data.argumentSource ++ content ++ closingDelimiter data.argumentSource
        else
          "\\begin" ++ inBraces data.name ++ data.argumentSource ++ content ++ "\\end" ++
            inBraces data.name
    | .closing => "\\end" ++ inBraces data.name
    | .plain =>
        commandSource data ++
          match data.contentForm with
          | .braced => inBraces content
          | .delimited character =>
              String.singleton character ++ content ++ String.singleton character
          | _ => content

mutual

/-- The source of a tree. -/
def source : Tree → String
  | .node _ data children =>
      match data.kind with
      | .text content => content
      | .element => elementSource data (sourceAll children)
      | _ => sourceAll children

/-- The source of several trees. -/
def sourceAll : List Tree → String
  | [] => ""
  | tree :: rest => tree.source ++ sourceAll rest

end

end Tree

namespace Document

/-- The source of a node. -/
def source (document : Document) (id : NodeId) : String := (document.tree id).source

mutual

/-- The text of a value; fragments are given by their source. -/
def valueText (document : Document) : Value → String
  | .none => ""
  | .bool value => if value then "true" else "false"
  | .int value => toString value
  | .float value => Decimal.text value
  | .dimension value => value.text
  | .glue value => value.text
  | .text value => value
  | .token value => value.display
  | .tokens value => Token.sourceList value
  | .list items => ",".intercalate (document.itemTexts items)
  | .dictionary entries => ",".intercalate (document.entryTexts entries)
  | .fragment id => document.source id
  | .reference label _ => label

/-- The texts of several values. -/
def itemTexts (document : Document) : List Value → List String
  | [] => []
  | value :: rest => document.valueText value :: document.itemTexts rest

/-- The texts of the entries of a dictionary. -/
def entryTexts (document : Document) : List (String × Value) → List String
  | [] => []
  | (key, value) :: rest => (key ++ "=" ++ document.valueText value) :: document.entryTexts rest

end

end Document

end TexTree
