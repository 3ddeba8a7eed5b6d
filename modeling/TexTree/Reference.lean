import TexTree.Document.Basic
import TexTree.Log
import TexTree.Table
import TexTree.Text.Blank

/-!
# Cross references

A label is attached to a node, usually to the one that was numbered last.  A
reference to a label that is attached later is completed when that happens.
-/

namespace TexTree

/-- The labels and references of a session. -/
structure References where
  /-- The nodes that labels are attached to. -/
  labels : Table NodeId
  /-- The attributes that wait for a label. -/
  pending : Table (List (NodeId × String))
  /-- The node that the next label is attached to. -/
  current : Option NodeId
  deriving Inhabited

namespace References

/-- No labels and no references. -/
def empty : References := ⟨.empty, .empty, none⟩

/-- The labels that were referred to and never attached. -/
def unresolved (references : References) : List String := references.pending.names

/-- Complete the attributes that waited for a label. -/
def complete (document : Document) (label : String) (target : NodeId)
    (waiting : List (NodeId × String)) : Document :=
  waiting.foldl
    (fun document (node, field) =>
      document.setAttribute node field (.reference label (some target)))
    document

/-- Attach a label to a node, or to the current one if none is given, and
complete the references to it. -/
def attach (references : References) (document : Document) (text : String)
    (node : Option NodeId) : References × Document × List LogEntry :=
  let label := Text.trim text
  if label.isEmpty then (references, document, [])
  else
    match node <|> references.current with
    | none =>
        (references, document,
          [.warning "context" ("\\label\x7b" ++ label ++ "\x7d outside of a labelable context")])
    | some target =>
        let labeled := document.modify target fun inner => { inner with label := some label }
        let waiting := (references.pending.get? label).getD []
        ({ references with
           labels := references.labels.insert label target
           pending := references.pending.erase label },
          complete labeled label target waiting, [])

/-- Let a field of a node refer to a label. -/
def refer (references : References) (document : Document) (node : NodeId)
    (field text : String) : References × Document :=
  let label := Text.trim text
  if label.isEmpty then (references, document)
  else
    let target := references.labels.get? label
    let waiting := (references.pending.get? label).getD []
    let pending :=
      if target.isNone then references.pending.insert label (waiting ++ [(node, field)])
      else references.pending
    ({ references with pending }, document.setAttribute node field (.reference label target))

end References

end TexTree
