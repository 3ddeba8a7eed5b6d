import TexTree.Proofs.Engine.Bodies

/-!
# Environments nest

Environments that are defined at the beginning of a source nest as they are written: every
pair is one element, with the elements of the pairs directly inside of it, and its text is
that of its content between the two codes of the environment (`Body.environments_nest`).
-/

namespace TexTree

namespace Custom

/-- The definitions of a family. -/
def printAll (family : List Custom) : List Char := family.flatMap Custom.print

/-- The definitions of a family are cut into their tokens. -/
theorem cuts_printAll (family : List Custom) :
    Cuts (printAll family) (family.flatMap Custom.tokens) := by
  induction family with
  | nil => exact .nil
  | cons custom family ih => exact custom.cuts.append ih

/-- The definitions contain all codes, and besides at least one character for each of the
environments. -/
theorem length_printAll (family : List Custom) :
    ∃ codes, (printAll family).length = family.length + codes ∧
      ∀ custom ∈ family, custom.opening.length + custom.closing.length ≤ codes := by
  induction family with
  | nil => exact ⟨0, rfl, by simp⟩
  | cons custom family ih =>
      obtain ⟨codes, isLength, short⟩ := ih
      have own : custom.opening.length + custom.closing.length + 1 ≤ custom.print.length := by
        simp only [print, Written.command, Written.group, List.length_append, List.length_cons]
        omega
      refine ⟨custom.print.length - 1 + codes, ?_, ?_⟩
      · rw [printAll, List.flatMap_cons, List.length_append, ← printAll, isLength,
          List.length_cons]
        omega
      · intro other member
        rcases List.mem_cons.mp member with rfl | old
        · omega
        · have bounded := short other old
          omega

end Custom

open Engine

/-- Environments that are defined at the beginning and have had no meaning before nest in
the document as they do in the source. -/
theorem Body.environments_nest (settings : Settings) (files : Files) (date : Date)
    {family : List Custom} (distinct : (family.map Custom.name).Nodup)
    (unbound : ∀ custom ∈ family,
      (fresh settings files date .empty).scopes.command? custom.name = none)
    (body : Body) (uses : body.Uses family) {fuel : Nat}
    (enough : (Custom.printAll family ++ body.print).length + 3 ≤ fuel) :
    ∃ document engine,
      parseTextWithin fuel (String.ofList (Custom.printAll family ++ body.print))
        (fresh settings files date .empty) = .ok document engine ∧
      (document.tree Document.root).outline = body.outline ∧
      document.textContent Document.root = String.ofList body.text := by
  have cuts := (Custom.cuts_printAll family).append body.cuts
  obtain ⟨codes, isLength, short⟩ := Custom.length_printAll family
  have ahead := cuts.ahead_ofText "<string>"
  have bare := Reader.map_bare_ahead .initial
    (Reader.ofText (String.ofList (Custom.printAll family ++ body.print)) "<string>")
  rw [ahead] at bare
  have stands := (stands_fresh settings files date (ahead.trans bare.symm)).await unbound
  have idle := idle_fresh settings files date
  have enoughBody : body.print.length + family.length + codes + 3 ≤ fuel := by
    rw [List.length_append, isLength] at enough
    omega
  obtain ⟨document, engine, parses, sound, isRoot, within⟩ := parse_held idle
    (runs_digestRoot_body (idle.withText _) distinct short uses stands enoughBody)
  have nesting : (document.tree Document.root).shapes = body.shapes :=
    (sound.gauged_shape isRoot).trans within
  refine ⟨document, engine, parses, ?_, ?_⟩
  · rw [← Tree.outlineAll_shapes, nesting, body.outlineAll_shapes]
  · rw [Document.textContent, ← Tree.textAll_shapes, nesting, body.textAll_shapes]

/-- Environments for shells and for cores. -/
def Custom.shellsAndCores : List Custom := [shell, core]
where
  shell : Custom :=
    ⟨"shell", ['a', 'b'], ['c'], by decide +kernel, by decide +kernel, by decide +kernel⟩
  core : Custom := ⟨"core", ['d'], [], by decide +kernel, by decide +kernel, by decide +kernel⟩

/-- A shell with a core and another shell in it, behind a word. -/
def Body.shells : Body :=
  .part (.word word true)
    (.part (.pair shell false (.part (.pair core true (.part (.word word false) .done) false)
      (.part (.pair shell false .done false) .done)) false) .done)
where
  word : Text.Word := ⟨['x'], by decide +kernel, by simp⟩
  shell : Custom := Custom.shellsAndCores.shell
  core : Custom := Custom.shellsAndCores.core

theorem Body.environments_nest_shells :
    (Custom.shellsAndCores.map Custom.name).Nodup ∧
    (∀ custom ∈ Custom.shellsAndCores,
      (fresh {} default ⟨2021, 3, 4⟩ .empty).scopes.command? custom.name = none) ∧
    shells.Uses Custom.shellsAndCores ∧
    (Custom.printAll Custom.shellsAndCores ++ shells.print).length + 3 ≤ 200 ∧
    String.ofList shells.print =
      "x \\begin\x7bshell\x7d\\begin\x7bcore\x7d x\\end\x7bcore\x7d" ++
        "\\begin\x7bshell\x7d\\end\x7bshell\x7d\\end\x7bshell\x7d" ∧
    ∃ document engine,
      parseTextWithin 200 (String.ofList (Custom.printAll Custom.shellsAndCores ++ shells.print))
        (fresh {} default ⟨2021, 3, 4⟩ .empty) = .ok document engine ∧
      (document.tree Document.root).outline =
        [.node "shell" .opening "abd xabcc"
          [.node "core" .opening "d x" [], .node "shell" .opening "abc" []]] ∧
      document.textContent Document.root = "x abd xabcc" := by
  have distinct : (Custom.shellsAndCores.map Custom.name).Nodup := by decide
  have unbound : ∀ custom ∈ Custom.shellsAndCores,
      (fresh {} default ⟨2021, 3, 4⟩ .empty).scopes.command? custom.name = none := by
    rw [fresh, Builtin.scopes_eq]
    decide +kernel
  have uses : shells.Uses Custom.shellsAndCores :=
    ⟨trivial, ⟨.head _, ⟨⟨.tail _ (.head _), ⟨trivial, trivial⟩⟩, ⟨⟨.head _, trivial⟩, trivial⟩⟩⟩,
      trivial⟩
  have enough : (Custom.printAll Custom.shellsAndCores ++ shells.print).length + 3 ≤ 200 := by
    decide +kernel
  exact ⟨distinct, unbound, uses, enough, by decide,
    environments_nest {} default ⟨2021, 3, 4⟩ distinct unbound shells uses enough⟩

end TexTree
