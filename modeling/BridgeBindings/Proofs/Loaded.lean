import BridgeBindings.Proofs.Crowding
import BridgeBindings.Proofs.Lineage
import BridgeBindings.Proofs.Statements

/-!
# Loaded programs are spelled

Every file of a loaded program has been read from a text, and the classes,
methods and functions that a text declares are named by identifiers. So no
name in a loaded program has a dot in it, and its qualified names tell what
they are made of.
-/

namespace BridgeBindings

open Syntax

namespace Syntax

open Grammar BridgeBindings.Syntax.Parser

/-- A module that takes all of a text. -/
theorem wholeModule_yields {n : Nat} {b : Budget n} {P : String → Prop}
    (hname : Yields b identifier P) (levels depth : Nat) : Yields b (do
      let body ← statementsAt (expressionAt levels)
          (patternAt (expressionAt levels) depth) depth
      kind .finish
      return ⟨body⟩) fun tree : Module => AllNamed P tree.body := by
  refine (statementsAt_yields hname (expressionAt_yields b levels)
    (patternAt_yields _ _) _).bind fun body hbody => ?_
  exact (kind_yields _).map fun _ _ => hbody

/-- What a text declares is named without dots. -/
theorem readModule_undotted {text : String} {tree : Module}
    (h : readModule text = .ok tree) :
    AllNamed (fun id => '.' ∉ id.toList) tree.body := by
  obtain ⟨after, hafter⟩ := run_ok h
  exact (wholeModule_yields (identifier_undotted _) _ _ _ _ _
    ⟨Nat.le_refl _, Lexer.tokens_undotted _ _⟩ hafter).2

end Syntax

namespace Program

theorem read_tree {files : FileTree}
    {root path rootPackage : String} {s : Source}
    (h : Source.read files root path rootPackage = .ok s) :
    ∃ text, readModule text = .ok s.tree := by
  obtain ⟨text, tree, -, htree, rfl⟩ := Source.read_ok h
  exact ⟨text, htree⟩

/-- Every file of a loaded program has been read from a text. -/
theorem load_read {files : FileTree} {config : Config} {p : Program} {log : Log}
    (h : load files config = (.ok p, log)) {s : Source} (hs : s ∈ p.files) :
    ∃ text, readModule text = .ok s.tree := by
  obtain ⟨path, -, hpath⟩ := read_of_mem_files h hs
  exact read_tree hpath

end Program

/-- The names of a loaded program have no dots in them. -/
theorem spelled_of_load {files : FileTree} {config : Config}
    {p : Program} {log : Log} (h : Program.load files config = (.ok p, log)) :
    (Symbols.ofProgram p).Spelled := by
  have hcls : ∀ c, (Symbols.ofProgram p).Declares c →
      Stmt.Named (fun id => '.' ∉ id.toList) (.cls c.decl) := by
    intro c hc
    obtain ⟨s, hs, -, hscope⟩ := Symbols.source_of_scope hc.inTree
    obtain ⟨text, htext⟩ := Program.load_read h hs
    have hdecl := hc.decl
    rw [hscope] at hdecl
    obtain ⟨stmt, hstmt, hcls⟩ :=
      List.mem_filterMap.mp (Table.get?_ofList_mem hdecl)
    unfold Scope.classOf? at hcls
    split at hcls
    · next d =>
        rw [show c.decl =
          d from (congrArg Prod.snd (Option.some.inj hcls)).symm]
        exact readModule_undotted htext _ hstmt
    · cases hcls
  refine ⟨fun c hc => (hcls c hc).1, fun c hc f hf => ?_⟩
  obtain ⟨stmt, hstmt, hf⟩ := List.mem_filterMap.mp hf
  split at hf
  · next g =>
      split at hf
      · cases hf
        exact (hcls c hc).2 _ hstmt
      · cases hf
  · cases hf

end BridgeBindings
