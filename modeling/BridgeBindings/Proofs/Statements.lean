import BridgeBindings.Proofs.Quoting
import BridgeBindings.Proofs.Spelling

/-!
# The names that statements declare

Whatever is true of every name that is read, is true of the names of all classes
and functions that a module declares. The grammar of statements is walked like
that of expressions, with the budget that the expressions keep; a class or a
function is named by the identifier behind its keyword and by nothing else.
-/

namespace BridgeBindings.Syntax

/-- The classes, their methods and the functions that a statement declares
have such names. -/
def Stmt.Named (P : String → Prop) : Stmt → Prop
  | .cls c => P c.name ∧ ∀ f, .function f ∈ c.body → P f.name
  | .function f => P f.name
  | _ => True

/-- All of these statements declare such names. -/
def AllNamed (P : String → Prop) (stmts : List Stmt) : Prop :=
  ∀ s ∈ stmts, s.Named P

namespace Parser

/-- The budget that asks for names without dots, besides. -/
def undotted (n : Nat) : Budget n where
  holds ts := slack ts ≤ n ∧ Undotted ts
  tail ts h := ⟨(slack_tail ts).trans h.1, h.2.tail⟩
  slack _ h := h.1

theorem identifier_undotted (n : Nat) :
    Yields (undotted n) identifier fun id => '.' ∉ id.toList := by
  have hpeek : Yields (undotted n) peekIdentifier
      (Maybe fun id => '.' ∉ id.toList) := by
    refine peek_holds.bind fun t ht => ?_
    obtain ⟨rest, -, hundotted⟩ := ht
    have hkind := hundotted t List.mem_cons_self
    split
    · next id hname =>
        rw [hname] at hkind
        refine .pure ?_
        split
        · exact maybe_none
        · exact maybe_some (Text.normalForm_undotted hkind)
    · exact none_yields
  refine hpeek.bind fun o ho => ?_
  split
  · exact advance_yields.map fun _ _ => ho _ rfl
  · exact refuse_yields

theorem endRow_yields {n : Nat} {b : Budget n} : Yields b endRow Any := by
  intro s a s' hs hr
  cases hr
  exact ⟨hs, trivial⟩

theorem orElse_yields {α : Type} {n : Nat} {b : Budget n}
    {p q : Parser α} {P : α → Prop} (hp : Yields b p P) (hq : Yields b q P) :
    Yields b (orElse p q) P := by
  intro s a s' hs hr
  unfold orElse at hr
  split at hr
  · next reached _ =>
      exact hq { s with reached := max s.reached reached } _ _ hs hr
  · exact hp _ _ _ hs hr

end Parser

namespace Grammar

open BridgeBindings.Syntax.Parser

/-! ## Patterns -/

section Patterns

variable {n : Nat} {b : Budget n} {r : Rules} {p : Parser Unit}

theorem nextPattern_yields (close : String) :
    Yields b (nextPattern close) Any :=
  (takeSymbol_yields _).bind fun _ _ =>
    .ite ((isSymbol_yields _).map fun _ _ => trivial) (.pure trivial)

theorem dottedWord_yields : Yields b dottedWord Any := by
  refine identifier_yields.bind fun _ _ =>
    repeatFrom_yields trivial fun _ _ => ?_
  refine (takeSymbol_yields _).bind fun _ _ => .ite ?_ none_yields
  exact identifier_yields.map fun _ _ => maybe_some trivial

theorem number_yields : Yields b number Any := by
  refine peek_yields.bind fun t _ => ?_
  split
  · exact advance_yields.map fun _ _ => trivial
  · exact refuse_yields

theorem numberPattern_yields : Yields b numberPattern Any := by
  refine (takeSymbol_yields _).bind fun _ _ =>
    number_yields.bind fun real _ => ?_
  refine (takeSymbol_yields _).bind fun plus _ => ?_
  extract_lets afterSign
  have hafter : ∀ added, Yields b (afterSign added) Any := by
    intro added
    refine .ite ?_ (.pure trivial)
    exact number_yields.bind fun _ _ => .ite refuse_yields (.pure trivial)
  exact .ite (hafter true) ((takeSymbol_yields _).bind fun _ _ => hafter _)

theorem literalOrName_yields : Yields b (literalOrName r) Any := by
  refine peek_yields.bind fun t _ => ?_
  split
  · exact numberPattern_yields
  · exact numberPattern_yields
  · exact (strings_yields b r).map fun _ _ => trivial
  · refine .ite advance_yields (dottedWord_yields.bind fun _ _ => ?_)
    exact .ite refuse_yields (.pure trivial)
  · exact refuse_yields

theorem orStarPattern_yields (hp : Yields b p Any) :
    Yields b (orStarPattern p) Any :=
  (takeSymbol_yields _).bind fun _ _ =>
    .ite (identifier_yields.map fun _ _ => trivial) hp

theorem patternsUntil_yields (hp : Yields b p Any) (close : String) :
    Yields b (patternsUntil close p) Any := by
  refine (isSymbol_yields _).bind fun _ _ => ?_
  extract_lets afterItems
  have hafter : ∀ u, Yields b (afterItems u) Any := fun _ => symbol_yields _
  refine .ite (hp.bind fun _ _ => ?_) (hafter ())
  refine (repeatFrom_yields (P := Any) trivial fun _ _ => ?_).bind fun _ _ =>
    hafter ()
  refine (nextPattern_yields _).bind fun _ _ => .ite ?_ none_yields
  exact hp.map fun _ _ => maybe_some trivial

theorem mappingItem_yields (hp : Yields b p Any) :
    Yields b (mappingItem r p) Any :=
  (takeSymbol_yields _).bind fun _ _ =>
    .ite (identifier_yields.map fun _ _ => trivial)
    (literalOrName_yields.bind fun _ _ => (symbol_yields _).bind fun _ _ => hp)

theorem classArgument_yields (hp : Yields b p Any) :
    Yields b (classArgument p) Any :=
  (identifierBefore_yields _).bind fun _ _ => hp

theorem closedPattern_yields (hp : Yields b p Any) :
    Yields b (closedPattern r p) Any := by
  refine peek_yields.bind fun t _ => ?_
  split
  · exact advance_yields.bind fun _ _ =>
      patternsUntil_yields (orStarPattern_yields hp) _
  · exact advance_yields.bind fun _ _ =>
      patternsUntil_yields (orStarPattern_yields hp) _
  · exact advance_yields.bind fun _ _ =>
      patternsUntil_yields (mappingItem_yields hp) _
  · refine .ite advance_yields (dottedWord_yields.bind fun _ _ => ?_)
    refine (takeSymbol_yields _).bind fun _ _ => .ite ?_ (.pure trivial)
    exact patternsUntil_yields (classArgument_yields hp) _
  · exact numberPattern_yields
  · exact numberPattern_yields
  · exact (strings_yields b r).map fun _ _ => trivial
  · exact refuse_yields

theorem patternRule_yields (hp : Yields b p Any) :
    Yields b (patternRule r p) Any := by
  refine (closedPattern_yields hp).bind fun _ _ => ?_
  refine (repeatFrom_yields (P := Any) trivial fun _ _ => ?_).bind fun _ _ => ?_
  · refine (takeSymbol_yields _).bind fun _ _ => .ite ?_ none_yields
    exact (closedPattern_yields hp).map fun _ _ => maybe_some trivial
  · refine (takeWord_yields _).bind fun _ _ => .ite ?_ (.pure trivial)
    exact identifier_yields.bind fun _ _ => .ite refuse_yields (.pure trivial)

theorem patternAt_yields (r : Rules) (levels : Nat) :
    Yields b (patternAt r levels) Any := by
  induction levels with
  | zero => exact refuse_yields
  | succ levels ih => exact patternRule_yields ih

theorem casePatterns_yields (hp : Yields b p Any) :
    Yields b (casePatterns p) Any := by
  refine (isSymbol_yields _).bind fun star _ =>
    (orStarPattern_yields hp).bind fun _ _ => ?_
  extract_lets afterFirst
  have hafter : ∀ u, Yields b (afterFirst u) Any := by
    intro _
    refine repeatFrom_yields trivial fun _ _ => ?_
    refine (takeSymbol_yields _).bind fun _ _ => .ite ?_ none_yields
    refine (isSymbol_yields _).bind fun _ _ =>
      (isWord_yields _).bind fun _ _ => ?_
    exact .ite none_yields
      ((orStarPattern_yields hp).map fun _ _ => maybe_some trivial)
  refine (isSymbol_yields _).bind fun _ _ => ?_
  exact .ite (refuse_yields.bind fun u (_ : Any u) => hafter u) (hafter ())

end Patterns

/-! ## Simple statements -/

section Simple

variable {n : Nat} {b : Budget n} {r : Rules} (P : String → Prop)
  (hr : ∀ k, Yields b (r k) (Quotes n))

theorem dottedText_yields : Yields b dottedText Any := by
  refine identifier_yields.bind fun _ _ =>
    repeatFrom_yields trivial fun _ _ => ?_
  refine (takeSymbol_yields _).bind fun _ _ => .ite ?_ none_yields
  exact identifier_yields.map fun _ _ => maybe_some trivial

theorem importName_yields {name : Parser String} (hname : Yields b name Any) :
    Yields b (importName name) Any := by
  refine hname.bind fun _ _ => (takeWord_yields _).bind fun _ _ => ?_
  exact .ite (identifier_yields.map fun _ _ => trivial) (.pure trivial)

theorem importNames_yields {name : Parser String} (hname : Yields b name Any) :
    Yields b (importNames name) Any := by
  refine (importName_yields hname).bind fun _ _ => ?_
  refine (repeatFrom_yields (P := Any) trivial fun _ _ => ?_).map fun _ _ =>
    trivial
  refine (takeSymbol_yields _).bind fun _ _ => .ite ?_ none_yields
  exact (importName_yields hname).map fun _ _ => maybe_some trivial

theorem importNamesInside_yields : Yields b importNamesInside Any := by
  refine (importName_yields identifier_yields).bind fun _ _ => ?_
  refine (repeatFrom_yields (P := Any) trivial fun _ _ => ?_).bind fun _ _ => ?_
  · refine (takeSymbol_yields _).bind fun _ _ => .ite none_yields ?_
    refine (isSymbol_yields _).bind fun _ _ => .ite none_yields ?_
    exact (importName_yields identifier_yields).map fun _ _ =>
      maybe_some trivial
  · exact (symbol_yields _).map fun _ _ => trivial

theorem importFrom_yields : Yields b importFrom (Stmt.Named P) := by
  refine (repeatFrom_yields (P := Any) trivial fun _ _ => ?_).bind
    fun level _ => ?_
  · refine (takeSymbol_yields _).bind fun _ _ =>
      .ite (.pure (maybe_some trivial)) ?_
    exact (takeSymbol_yields _).bind fun _ _ =>
      .ite (.pure (maybe_some trivial)) none_yields
  refine (isWord_yields _).bind fun _ _ => ?_
  extract_lets afterModule
  have hafter : ∀ module, Yields b (afterModule module) (Stmt.Named P) := by
    intro module
    refine (word_yields _).bind fun _ _ =>
      (takeSymbol_yields _).bind fun _ _ => ?_
    refine .ite (.pure trivial)
      ((takeSymbol_yields _).bind fun _ _ => .ite ?_ ?_)
    · exact importNamesInside_yields.map fun _ _ => trivial
    · exact (importNames_yields identifier_yields).map fun _ _ => trivial
  exact .ite (hafter none)
    (dottedText_yields.bind fun text _ => hafter (some text))

include hr

theorem deleteItem_yields : Yields b (deleteTargets.item r) (Quotes n) := by
  refine (primaryRule_yields hr).bind fun e he => ?_
  split
  · exact explaining_yields.bind fun _ _ =>
      .ite (faultAt_yields _) refuse_yields
  · exact .pure he

theorem assigned_yields : Yields b (assigned r) Any :=
  (isWord_yields _).bind fun _ _ => .ite (yieldRule_yields hr).any (hr _).any

theorem assignments_yields (first : Expr) :
    Yields b (assignments r first) Any := by
  refine repeatFrom_yields trivial fun found _ => ?_
  refine (isSymbol_yields _).bind fun _ _ => .ite ?_ none_yields
  split
  · exact faultAt_yields _
  · exact advance_yields.bind fun _ _ => (assigned_yields hr).map fun _ _ =>
      maybe_some trivial

theorem expressionStatement_yields :
    Yields b (expressionStatement r) (Stmt.Named P) := by
  refine position_yields.bind fun start _ =>
    (assigned_yields hr).bind fun first _ => ?_
  refine peek_yields.bind fun t _ => ?_
  split
  · refine .ite ?_ ?_
    · refine advance_yields.bind fun _ _ => (hr _).bind fun typeExpr _ => ?_
      refine (takeSymbol_yields _).bind fun _ _ => ?_
      extract_lets afterValue
      have hafter : ∀ value, Yields b (afterValue value)
          (Stmt.Named P) := fun value => endRow_yields.map fun _ _ => trivial
      exact .ite ((assigned_yields hr).bind fun value _ => hafter (some value))
        (hafter none)
    · split
      · exact explaining_yields.bind fun _ _ =>
          .ite (faultAt_yields _) refuse_yields
      · exact explaining_yields.bind fun _ _ =>
          .ite (faultAt_yields _) refuse_yields
      · exact refuse_yields
  · refine (assignments_yields hr first).bind fun found _ => ?_
    exact endRow_yields.map fun _ _ => trivial
  · split
    · refine .ite (advance_yields.bind fun _ _ => ?_) (faultAt_yields _)
      exact (assigned_yields hr).map fun _ _ => trivial
    · exact .pure trivial
  · exact .pure trivial

theorem deleteTargets_yields : Yields b (deleteTargets r) Any := by
  have hitem := deleteItem_yields hr
  exact hitem.bind fun first hfirst =>
    (rest_yields hfirst hitem).bind fun _ _ => .pure trivial

theorem optionalExpressions_yields : Yields b (optionalExpressions r) Any :=
  peek_yields.bind fun _ _ =>
    .ite ((hr _).map fun _ _ => trivial) (.pure trivial)

theorem simpleStatement_yields :
    Yields b (simpleStatement r) (Stmt.Named P) := by
  have hskip : Yields b (do
      advance
      let _ ← identifier
      repeatFrom () fun _ => do
        if ← takeSymbol "," then
          let _ ← identifier
          return some ()
        else return none
      return .other) (Stmt.Named P) := by
    refine advance_yields.bind fun _ _ => identifier_yields.bind fun _ _ => ?_
    refine (repeatFrom_yields (P := Any) trivial fun _ _ => ?_).map fun _ _ =>
      trivial
    refine (takeSymbol_yields _).bind fun _ _ => .ite ?_ none_yields
    exact identifier_yields.map fun _ _ => maybe_some trivial
  refine peek_yields.bind fun t _ => ?_
  split
  · refine advance_yields.bind fun _ _ => ?_
    exact (optionalExpressions_yields hr).map fun _ _ => trivial
  · refine advance_yields.bind fun _ _ => ?_
    exact (importNames_yields dottedText_yields).map fun _ _ => trivial
  · exact advance_yields.bind fun _ _ => importFrom_yields P
  · refine advance_yields.bind fun _ _ => peek_yields.bind fun _ _ =>
      .ite ?_ (.pure trivial)
    refine (hr _).bind fun exc _ => (takeWord_yields _).bind fun _ _ =>
      .ite ?_ (.pure trivial)
    exact (hr _).map fun _ _ => trivial
  · refine advance_yields.bind fun _ _ => ?_
    exact (deleteTargets_yields hr).map fun _ _ => trivial
  · refine advance_yields.bind fun _ _ => (hr _).bind fun test _ => ?_
    refine (takeSymbol_yields _).bind fun _ _ => .ite ?_ (.pure trivial)
    exact (hr _).map fun _ _ => trivial
  · exact hskip
  · exact hskip
  · exact advance_yields.bind fun _ _ => .pure trivial
  · exact advance_yields.bind fun _ _ => .pure trivial
  · exact advance_yields.bind fun _ _ => .pure trivial
  · exact expressionStatement_yields P hr

theorem simpleLine_yields : Yields b (simpleLine r) (AllNamed P) := by
  refine (simpleStatement_yields P hr).bind fun first hfirst => ?_
  refine (repeatFrom_yields (P := fun found => AllNamed P found.1) ?_
    fun found hfound => ?_).bind fun found hfound => ?_
  · exact List.forall_mem_singleton.mpr hfirst
  · refine .ite none_yields
      ((takeSymbol_yields _).bind fun _ _ => .ite none_yields ?_)
    refine peek_yields.bind fun _ _ => .ite (.pure (maybe_some hfound)) ?_
    refine (simpleStatement_yields P hr).map fun stmt hstmt => maybe_some ?_
    exact List.forall_mem_cons.mpr ⟨hstmt, hfound⟩
  · exact (kind_yields _).map fun _ _ s hs => hfound s (List.mem_reverse.mp hs)

end Simple

/-! ## Compound statements

`c` stands for what is read inside: expressions, patterns and the blocks
one level down. -/

/-- What a context has to know: its expressions and patterns keep the budget,
and so do its blocks, which declare such names. -/
structure Context.Reads {n : Nat} (b : Budget n) (P : String → Prop)
    (c : Context) : Prop where
  name : Yields b identifier P
  rules : ∀ k, Yields b (c.rules k) (Quotes n)
  pattern : Yields b c.pattern Any
  inner : Yields b c.inner (AllNamed P)

section Compound

variable {n : Nat} {b : Budget n} {P : String → Prop} {c : Context}
    (hc : c.Reads b P)

include hc

theorem block_yields : Yields b (block c) (AllNamed P) := by
  refine (symbol_yields _).bind fun _ _ =>
    peek_yields.bind fun _ _ => .ite ?_ ?_
  · refine advance_yields.bind fun _ _ => (kind_yields _).bind fun _ _ => ?_
    exact hc.inner.bind fun body hbody => (kind_yields _).map fun _ _ => hbody
  · exact simpleLine_yields P hc.rules

theorem elseBlock_yields : Yields b (elseBlock c) (AllNamed P) :=
  (takeWord_yields _).bind fun _ _ =>
    .ite (block_yields hc) (.pure (List.forall_mem_nil _))

theorem ifStatement_yields : Yields b (ifStatement c) (Stmt.Named P) := by
  have hbranch : Yields b (do
      let test ← c.rules .named
      return (test, ← block c)) Any :=
    (hc.rules _).bind fun _ _ => (block_yields hc).map fun _ _ => trivial
  refine hbranch.bind fun first _ => ?_
  refine (repeatFrom_yields (P := Any) trivial fun _ _ => ?_).bind
    fun branches _ => ?_
  · refine (takeWord_yields _).bind fun _ _ => .ite ?_ none_yields
    exact hbranch.map fun _ _ => maybe_some trivial
  · refine (elseBlock_yields hc).bind fun final _ => ?_
    split
    · exact refuse_yields
    · refine .pure (List.foldlRecOn _ _ trivial fun inner _ outer _ => ?_)
      exact trivial

theorem forStatement_yields (isAsync : Bool) :
    Yields b (forStatement c isAsync) (Stmt.Named P) := by
  refine (hc.rules _).bind fun _ _ => (word_yields _).bind fun _ _ => ?_
  refine (hc.rules _).bind fun _ _ => ?_
  exact (block_yields hc).bind fun _ _ =>
    (elseBlock_yields hc).map fun _ _ => trivial

theorem whileStatement_yields : Yields b (whileStatement c) (Stmt.Named P) := by
  refine (hc.rules _).bind fun _ _ => (block_yields hc).bind fun _ _ => ?_
  exact (elseBlock_yields hc).map fun _ _ => trivial

theorem withItem_yields : Yields b (withItem c.rules) Any := by
  refine (hc.rules _).bind fun _ _ => (takeWord_yields _).bind fun _ _ =>
    .ite ?_ (.pure trivial)
  exact (targetRule_yields hc.rules).map fun _ _ => trivial

theorem withItemsInside_yields : Yields b (withItemsInside c.rules) Any := by
  refine (symbol_yields _).bind fun _ _ =>
    (withItem_yields hc).bind fun _ _ => ?_
  refine (repeatFrom_yields (P := Any) trivial fun _ _ => ?_).bind fun _ _ => ?_
  · refine (takeSymbol_yields _).bind fun _ _ => .ite none_yields ?_
    refine (isSymbol_yields _).bind fun _ _ => .ite none_yields ?_
    exact (withItem_yields hc).map fun _ _ => maybe_some trivial
  · refine (symbol_yields _).bind fun _ _ =>
      (isSymbol_yields _).bind fun _ _ => ?_
    exact .ite (.pure trivial) refuse_yields

theorem withItems_yields : Yields b (withItems c.rules) Any := by
  refine (withItem_yields hc).bind fun _ _ => ?_
  refine (repeatFrom_yields (P := Any) trivial fun _ _ => ?_).map fun _ _ =>
    trivial
  refine (takeSymbol_yields _).bind fun _ _ => .ite ?_ none_yields
  exact (withItem_yields hc).map fun _ _ => maybe_some trivial

theorem withStatement_yields (isAsync : Bool) :
    Yields b (withStatement c isAsync) (Stmt.Named P) :=
  (orElse_yields (withItemsInside_yields hc) (withItems_yields hc)).bind
    fun _ _ => (block_yields hc).map fun _ _ => trivial

theorem handler_yields (grouped : Option Bool) :
    Yields b (handler c grouped) Any := by
  refine (takeSymbol_yields _).bind fun star _ => ?_
  extract_lets afterKind afterStar
  have hkind : ∀ kind, Yields b (afterKind kind) Any := by
    intro kind
    dsimp only [afterKind]
    have hname : ∀ name : Option String, Yields b (do
        let body ← block c
        pure ((⟨kind, name, body⟩ : Handler), star)) Any := fun name =>
      (block_yields hc).map fun _ _ => trivial
    refine .ite (hname none)
      ((takeWord_yields _).bind fun _ _ => .ite ?_ (hname none))
    exact identifier_yields.bind fun id _ => hname (some id)
  have hstar : ∀ u, Yields b (afterStar u) Any := by
    intro _
    refine peek_yields.bind fun t _ => ?_
    exact .ite ((hc.rules _).bind fun e _ => hkind (some e)) (hkind none)
  exact .ite (refuse_yields.bind fun u (_ : Any u) => hstar u) (hstar ())

theorem tryStatement_yields : Yields b (tryStatement c) (Stmt.Named P) := by
  refine (block_yields hc).bind fun body _ => ?_
  refine (repeatFrom_yields (P := Any) trivial fun found _ => ?_).bind
    fun found _ => ?_
  · refine (takeWord_yields _).bind fun _ _ => .ite ?_ none_yields
    exact (handler_yields hc _).map fun _ _ => maybe_some trivial
  · refine .ite ?_ ?_
    · exact (word_yields _).bind fun _ _ =>
        (block_yields hc).map fun _ _ => trivial
    · refine (elseBlock_yields hc).bind fun orelse _ =>
        (takeWord_yields _).bind fun _ _ => ?_
      extract_lets afterFinal
      have hafter : ∀ final, Yields b (afterFinal final) (Stmt.Named P) :=
        fun _ => .pure trivial
      exact .ite ((block_yields hc).bind fun final _ =>
        hafter final) (hafter [])

theorem functionStatement_yields (pos : Position) (isAsync : Bool)
    (decorators : List Expr) :
    Yields b (functionStatement c pos isAsync decorators) (Stmt.Named P) := by
  refine hc.name.bind fun name hname => (symbol_yields _).bind fun _ _ => ?_
  refine (parameters_yields hc.rules _ _).bind fun params _ =>
    (symbol_yields _).bind fun _ _ => ?_
  refine (takeSymbol_yields _).bind fun _ _ => ?_
  extract_lets afterReturns
  have hafter : ∀ returns, Yields b (afterReturns returns)
      (Stmt.Named P) := fun returns => (block_yields hc).map fun _ _ => hname
  exact .ite ((hc.rules _).bind fun e _ => hafter (some e)) (hafter none)

theorem classStatement_yields (pos : Position) (decorators : List Expr) :
    Yields b (classStatement c pos decorators) (Stmt.Named P) := by
  refine hc.name.bind fun name hname => (takeSymbol_yields _).bind fun _ _ => ?_
  extract_lets afterBases
  have hafter : ∀ found, Yields b (afterBases found)
      (Stmt.Named P) := fun found =>
    (block_yields hc).map fun body hbody => ⟨hname, fun f hf => hbody _ hf⟩
  exact .ite ((arguments_yields hc.rules _).bind fun found _ => hafter found)
    (hafter ([], []))

theorem declaration_yields (decorators : List Expr) :
    Yields b (declaration c decorators) (Stmt.Named P) := by
  refine peek_yields.bind fun t _ => ?_
  split
  · exact advance_yields.bind fun _ _ => functionStatement_yields hc _ _ _
  · refine advance_yields.bind fun _ _ => (word_yields _).bind fun _ _ => ?_
    exact functionStatement_yields hc _ _ _
  · exact advance_yields.bind fun _ _ => classStatement_yields hc _ _
  · exact refuse_yields

theorem decorated_yields : Yields b (decorated c) (Stmt.Named P) := by
  refine (repeatFrom_yields (P := Any) trivial fun _ _ => ?_).bind
    fun decorators _ => ?_
  · refine (takeSymbol_yields _).bind fun _ _ => .ite ?_ none_yields
    exact (hc.rules _).bind fun _ _ => (kind_yields _).map fun _ _ =>
      maybe_some trivial
  · exact declaration_yields hc _

theorem caseBlock_yields : Yields b (caseBlock c) Any := by
  refine (word_yields _).bind fun _ _ =>
    (casePatterns_yields hc.pattern).bind fun _ _ => ?_
  refine (takeWord_yields _).bind fun _ _ => ?_
  extract_lets afterGuard
  have hafter : ∀ guard, Yields b (afterGuard guard) Any := fun guard =>
    (block_yields hc).map fun _ _ => trivial
  exact .ite ((hc.rules _).bind fun e _ => hafter (some e)) (hafter none)

theorem matchStatement_yields : Yields b (matchStatement c) (Stmt.Named P) := by
  have hitem := orStarred_yields (hc.rules .bitOr) (hc.rules .named)
  refine (word_yields _).bind fun _ _ => position_yields.bind fun pos _ => ?_
  extract_lets item
  refine hitem.bind fun first hfirst =>
    (rest_yields hfirst hitem).bind fun found _ => ?_
  split
  next elts comma =>
    extract_lets afterSubject
    have hafter : ∀ u, Yields b (afterSubject u) (Stmt.Named P) := by
      intro _
      refine (symbol_yields _).bind fun _ _ =>
        (kind_yields _).bind fun _ _ => ?_
      refine (kind_yields _).bind fun _ _ =>
        (caseBlock_yields hc).bind fun one _ => ?_
      refine (repeatFrom_yields (P := Any) trivial fun _ _ => ?_).bind
        fun _ _ => ?_
      · refine (isWord_yields _).bind fun _ _ => .ite ?_ none_yields
        exact (caseBlock_yields hc).map fun _ _ => maybe_some trivial
      · exact (kind_yields _).map fun _ _ => trivial
    exact .ite (refuse_yields.bind fun u (_ : Any u) => hafter u) (hafter ())

theorem asyncStatement_yields (pos : Position) :
    Yields b (asyncStatement c pos) (Stmt.Named P) := by
  refine peek_yields.bind fun t _ => ?_
  split
  · exact advance_yields.bind fun _ _ => functionStatement_yields hc _ _ _
  · exact advance_yields.bind fun _ _ => forStatement_yields hc _
  · exact advance_yields.bind fun _ _ => withStatement_yields hc _
  · exact refuse_yields

theorem statement_yields : Yields b (statement c) (AllNamed P) := by
  have hone : ∀ {p : Parser Stmt}, Yields b p (Stmt.Named P) →
      Yields b (do return [← p]) (AllNamed P) :=
    fun hp => hp.map fun _ h => List.forall_mem_singleton.mpr h
  refine peek_yields.bind fun t _ => ?_
  split
  · exact hone (decorated_yields hc)
  · exact hone (declaration_yields hc _)
  · exact hone (declaration_yields hc _)
  · exact advance_yields.bind fun _ _ => hone (asyncStatement_yields hc _)
  · exact advance_yields.bind fun _ _ => hone (ifStatement_yields hc)
  · exact advance_yields.bind fun _ _ => hone (forStatement_yields hc _)
  · exact advance_yields.bind fun _ _ => hone (whileStatement_yields hc)
  · exact advance_yields.bind fun _ _ => hone (withStatement_yields hc _)
  · exact advance_yields.bind fun _ _ => hone (tryStatement_yields hc)
  · exact orElse_yields (hone (matchStatement_yields hc))
      (simpleLine_yields P hc.rules)
  · exact simpleLine_yields P hc.rules

theorem statementsRule_yields : Yields b (statementsRule c) (AllNamed P) := by
  refine (repeatFrom_yields (P := fun groups => ∀ g ∈ groups, AllNamed P g)
    (List.forall_mem_nil _) fun groups hgroups => ?_).map
      fun groups hgroups s hs => ?_
  · refine peek_yields.bind fun t _ => ?_
    split
    · exact none_yields
    · exact none_yields
    · refine (statement_yields hc).map fun g hg => maybe_some ?_
      exact List.forall_mem_cons.mpr ⟨hg, hgroups⟩
  · obtain ⟨g, hg, hs⟩ := List.mem_flatten.mp hs
    exact hgroups g (List.mem_reverse.mp hg) s hs

end Compound

/-- Statements with any number of levels of blocks below them, by
induction on these. -/
theorem statementsAt_yields {n : Nat} {b : Budget n} {P : String → Prop}
    (hname : Yields b identifier P) {r : Rules}
    (hr : ∀ k, Yields b (r k) (Quotes n)) {p : Parser Unit}
    (hp : Yields b p Any) (levels : Nat) :
    Yields b (statementsAt r p levels) (AllNamed P) := by
  induction levels with
  | zero => exact refuse_yields
  | succ levels ih => exact statementsRule_yields ⟨hname, hr, hp, ih⟩

end Grammar

end BridgeBindings.Syntax
