import TexTree.Document.Source
import TexTree.Text.Quoted

/-!
# The display of a document

A document is shown as an indented outline with one line for each text and with
opening and closing tags for all other nodes.
-/

namespace TexTree

namespace Document

/-- An attribute inside a tag.  A resolved reference shows the label of its
target behind a hash sign. -/
def attributeTag (document : Document) (name : String) (value : Value) : String :=
  match value with
  | .reference _ (some target) =>
      " " ++ name ++ "=\"#" ++ ((document.node target).label.getD "") ++ "\""
  | value => " " ++ name ++ "=" ++ Text.quoted (document.valueText value)

/-- What stands in the opening tag of a node. -/
def tag (document : Document) (data : Node) : String :=
  let mode := match data.mode with
    | .opening => " mode=\"begin\""
    | .closing => " mode=\"end\""
    | .plain => ""
  let label := match data.label with
    | some label => " id=\"" ++ label ++ "\""
    | none => ""
  let number := match data.number with
    | some number => " ref=\"" ++ number ++ "\""
    | none => ""
  data.name ++ mode ++ label ++ number ++
    String.join (data.attributes.map fun (name, value) => document.attributeTag name value)

mutual

/-- The outline of a tree at the given indentation. -/
def outline (document : Document) (indentation : String) : Tree → String
  | .node _ data children =>
      match data.kind with
      | .text content => indentation ++ Text.quoted content ++ "\n"
      | _ =>
          match children with
          | [] => indentation ++ "<" ++ document.tag data ++ "/>\n"
          | first :: rest =>
              indentation ++ "<" ++ document.tag data ++ ">\n" ++
                document.outline (indentation ++ "  ") first ++
                document.outlineAll (indentation ++ "  ") rest ++
                indentation ++ "</" ++ data.name ++ ">\n"

/-- The outlines of several trees. -/
def outlineAll (document : Document) (indentation : String) : List Tree → String
  | [] => ""
  | tree :: rest => document.outline indentation tree ++ document.outlineAll indentation rest

end

/-- The outline of a node. -/
def display (document : Document) (id : NodeId) : String := document.outline "" (document.tree id)

end Document

end TexTree
