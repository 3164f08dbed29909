import BridgeBindings.Proofs.Charges
import BridgeBindings.Proofs.Turns

/-!
# Where faults point

A fault is put together where the reading is, from the scope at hand and the row
of the part that is looked at. So its package and its path are those of the file
in which the annotation to blame is written, through aliases and through classes
that are resolved on the way, and its row is the one in which the part begins.
The message names that part, and the label is that of the declaration whose own
annotation was being read.

A quoted annotation is read from its text, and the rows of the text count from
one. If the part to blame is in there, then the row of the fault is a row of the
text and not of the file.
-/

namespace BridgeBindings

open Syntax

/-! ## Parts to blame -/

namespace Symbols

/-- What is said of a name of the program that stands for no type. -/
def refusal? (t : Symbols) (scope : Scope) (dotted : String) : Option String :=
  match t.lookup scope dotted with
  | none => some (unresolvedMessage dotted)
  | some symbol =>
      if symbol.isType then none else some (kindMessage dotted symbol.kind)

/-- A part that stops the reading, by itself or by a name that stands for no
type, and what is said of it. -/
inductive Offends (t : Symbols) (scope : Scope) (x : Expr) (message : String) :
    Prop where
  | wrong (h : Wrong scope x (.ok message))
  | name {dotted : String} (posed : Poses scope x (.name dotted))
      (refused : t.refusal? scope dotted = some message)

/-- A part of an annotation, or of what it quotes, of which this is
said, in this row. -/
inductive Shows (t : Symbols) (scope : Scope) (e : Expr) (row : Nat)
    (message : String) : Prop where
  | part {x : Expr} (isRead : Reads scope e x)
      (toBlame : t.Offends scope x message) (same : row = x.row)
  | quoted {x inner whole y : Expr} {text : String} (isRead : Reads scope e x)
      (posed : Poses scope x (.text text))
      (parsed : readExpression (Text.trim text) = .ok inner)
      (further : Encloses scope inner whole) (isReadThere : Reads scope whole y)
      (toBlame : t.Offends scope y message) (same : row = y.row)

/-- A fault that points at an annotation. -/
structure Points (t : Symbols) (scope : Scope) (e : Expr) (f : TypeFault) :
    Prop where
  package : f.package = scope.source.package
  path : f.path = some scope.source.relativePath
  part : ∃ row : Nat, f.row = some row ∧ t.Shows scope e row f.message

/-! ## Declarations -/

/-- What an annotation comes down to when aliases are followed. -/
def UnfoldsTo (t : Symbols) (scope : Scope) (e : Expr) (scope' : Scope)
    (e' : Expr) : Prop :=
  Relation.ReflTransGen
    (fun a b : Scope × Expr => t.Leads (.expr a.1 a.2) (.expr b.1 b.2))
      (scope, e) (scope', e')

/-- The label of a field of a class to which an item leads, if the annotation of
the field comes down to this one. -/
def OfField (t : Symbols) (item : Item) (scope : Scope) (e : Expr)
    (label : String) : Prop :=
  ∃ d g, t.Reaches item (.cls d) ∧ g ∈ d.decl.fields ∧
    t.UnfoldsTo d.scope g.typeExpr scope e ∧ label = d.fieldLabel g

/-- The annotation that was asked for under a label comes down to this one. -/
def OfOwn (t : Symbols) (item : Item) (own : Option String)
    (scope : Scope) (e : Expr) (label : String) : Prop :=
  own = some label ∧ ∃ home root, item = .expr home root ∧
    t.UnfoldsTo home root scope e

/-- A fault that points at an annotation to which an item leads, and has the
label of the declaration whose annotation comes down to it. -/
def Locates (t : Symbols) (item : Item) (own : Option String) (f : TypeFault) :
    Prop :=
  ∃ scope e label, f.declaration = some label ∧ t.Points scope e f ∧
    (t.OfField item scope e label ∨ t.OfOwn item own scope e label)

section Leading

variable {t : Symbols} {a : Item} {own own' : Option String} {f : TypeFault}

theorem UnfoldsTo.reaches {scope scope' : Scope} {e e' : Expr}
    (h : t.UnfoldsTo scope e scope' e') :
    t.Reaches (.expr scope e) (.expr scope' e') :=
  Relation.ReflTransGen.lift (fun a : Scope × Expr => Item.expr a.1 a.2)
    (fun _ _ hl => hl) _ _ h

theorem OfField.reaches {scope : Scope} {e : Expr} {label : String}
    (h : t.OfField a scope e label) : t.Reaches a (.expr scope e) := by
  obtain ⟨d, g, hreach, hdeclared, hunfolds, -⟩ := h
  exact (hreach.tail (.field hdeclared)).trans hunfolds.reaches

theorem Locates.toClass {c : ProgramClass} (hl : t.Leads a (.cls c))
    (h : t.Locates (.cls c) own f) : t.Locates a own' f := by
  obtain ⟨scope, e, label, hlabel, hpoints, ⟨d, g, hreach, hfield⟩ |
      ⟨-, _, _, hitem, -⟩⟩ := h
  · exact ⟨scope, e, label, hlabel, hpoints,
      .inl ⟨d, g, .head hl hreach, hfield⟩⟩
  · cases hitem

theorem Locates.toAlias {scope scope' : Scope} {e value : Expr}
    (hl : t.Leads (.expr scope e) (.expr scope' value))
    (h : t.Locates (.expr scope' value) own f) :
    t.Locates (.expr scope e) own f := by
  obtain ⟨home, x, label, hlabel, hpoints, ⟨d, g, hreach, hfield⟩ |
      ⟨hown, _, _, hitem, hunfolds⟩⟩ :=
    h
  · exact ⟨home, x, label, hlabel, hpoints,
      .inl ⟨d, g, .head hl hreach, hfield⟩⟩
  · cases hitem
    exact ⟨home, x, label, hlabel, hpoints,
      .inr ⟨hown, scope, e, rfl, .head hl hunfolds⟩⟩

/-- An annotation that is asked for under a label leads to what is blamed, by
aliases alone if the label is its own. -/
theorem comesFrom {home scope : Scope} {root e : Expr} {name label : String}
    (h : t.OfField (.expr home root) scope e label ∨
      t.OfOwn (.expr home root) (some name) scope e label) :
    t.Reaches (.expr home root) (.expr scope e) ∧
      (t.OfField (.expr home root) scope e label ∨
        label = name ∧ t.UnfoldsTo home root scope e) := by
  rcases h with hfield | ⟨hown, _, _, hitem, hunfolds⟩
  · exact ⟨hfield.reaches, .inl hfield⟩
  · cases hown
    cases hitem
    exact ⟨hunfolds.reaches, .inr ⟨rfl, hunfolds⟩⟩

/-- The annotation of a field is read under the label of the field. -/
theorem Locates.ofField {c : ProgramClass} {g : FieldDecl}
    (hg : g ∈ c.decl.fields)
    (h : t.Locates (.expr c.scope g.typeExpr) (some (c.fieldLabel g)) f) :
    t.Locates (.cls c) none f := by
  obtain ⟨home, x, label, hlabel, hpoints, ⟨d, g', hreach, hfield⟩ |
      ⟨hown, _, _, hitem, hunfolds⟩⟩ :=
    h
  · exact ⟨home, x, label, hlabel, hpoints,
      .inl ⟨d, g', .head (.field hg) hreach, hfield⟩⟩
  · cases hitem
    cases hown
    exact ⟨home, x, _, hlabel, hpoints, .inl ⟨c, g, .refl, hg, hunfolds, rfl⟩⟩

end Leading

end Symbols

theorem Encloses.points {t : Symbols} {site : Site} {e whole x : Expr}
    (hw : Encloses site.scope e whole) (hx : Reads site.scope whole x)
    {message : String} (hbad : t.Offends site.scope x message) :
    t.Locates (.expr site.scope e) (some site.declaration)
    (site.fault x.row message) := by
  refine ⟨site.scope, e, site.declaration, rfl, ⟨rfl, rfl, x.row, rfl, ?_⟩,
    .inr ⟨rfl, site.scope, e, rfl, .refl⟩⟩
  cases hw with
  | here => exact .part hx hbad rfl
  | quoted isRead posed parsed rest =>
      exact .quoted isRead posed parsed rest hx hbad rfl

/-! ## The faults of a step -/

/-- All faults that a step stops with are of this kind, in whatever
store it runs. -/
def FaultsAre (P : TypeFault → Prop) ⦃α : Type⦄ (step : Resolve α) : Prop :=
  ∀ s f, (step s).1 = .error (.fault f) → P f

section Faults

variable {P P' : TypeFault → Prop} {α β : Type} {step : Resolve α}

theorem FaultsAre.pure (a : α) : FaultsAre P (Pure.pure a : Resolve α) :=
  fun _ _ h => by cases h

theorem FaultsAre.stop {f : TypeFault} (h : P f) :
    FaultsAre P (Resolve.stop f : Resolve α) := by
  intro s fault hr
  cases hr
  exact h

theorem FaultsAre.exhausted : FaultsAre P (throw .exhausted : Resolve α) :=
  fun _ _ h => by cases h

theorem FaultsAre.verdict {site : Site} {row : Nat}
    {verdict : Except Breakdown String}
    (h : ∀ message, verdict = .ok message → P (site.fault row message)) :
    FaultsAre P (throw (site.stop row verdict) : Resolve α) := by
  intro s fault hr
  cases verdict with
  | ok message =>
      cases hr
      exact h message rfl
  | error b => cases hr

theorem expect_faults (x : Option Breakdown) :
    FaultsAre P (Resolve.expect x) := by
  intro s f hr
  cases x <;> cases hr

theorem FaultsAre.bind {f : α → Resolve β} (h : FaultsAre P step)
    (hf : ∀ a, FaultsAre P (f a)) : FaultsAre P (step >>= f) := by
  intro s fault hr
  rw [run_bind] at hr
  have hfirst := h s fault
  rcases hs : step s with ⟨e | a, s₁⟩ <;> rw [hs] at hr hfirst
  · cases hr
    exact hfirst rfl
  · exact hf a s₁ fault hr

theorem FaultsAre.imp (h : FaultsAre P step) (hp : ∀ f, P f → P' f) :
    FaultsAre P' step :=
  fun s f hr => hp f (h s f hr)

theorem FaultsAre.foldlM {γ : Type} {xs : List γ} {f : α → γ → Resolve α}
    (h : ∀ a, ∀ x ∈ xs, FaultsAre P (f a x)) (a : α) :
    FaultsAre P (xs.foldlM f a) := by
  induction xs generalizing a with
  | nil => exact .pure a
  | cons x xs ih =>
      rw [List.foldlM_cons]
      exact (h a x List.mem_cons_self).bind fun b =>
        ih (fun a y hy => h a y (List.mem_cons_of_mem x hy)) b

theorem changeDraft_faults (package : String) (f : Draft → Draft) :
    FaultsAre P (Resolve.changeDraft package f) := fun _ _ h => by cases h

theorem composes_faults : Composes fun _ step _ => FaultsAre P step :=
  ⟨fun a => .pure a, fun h hf => h.bind hf⟩

theorem FaultsAre.map {f : α → β} (h : FaultsAre P step) :
    FaultsAre P (f <$> step) :=
  composes_faults.map (y := step) h

theorem FaultsAre.mapM {γ : Type} {xs : List γ} {f : γ → Resolve α}
    (h : ∀ x ∈ xs, FaultsAre P (f x)) : FaultsAre P (xs.mapM f) :=
  composes_faults.mapM (g := f) h

end Faults

/-! ## One level -/

/-- An expansion whose faults point at annotations to which the item leads. -/
structure Expansion.Located (expand : Expansion) (t : Symbols) : Prop where
  cls : ∀ c, FaultsAre (t.Locates (.cls c) none) (expand.cls c)
  aliased : ∀ site scope name value, FaultsAre (fun f => isCall value = false ∧
    t.Locates (.expr scope value) (some site.declaration) f)
      (expand.aliased site scope name value)

section Level

variable {t : Symbols} {expand : Expansion} (h : expand.Located t)

include h

/-- A part that poses a name stops at it, or where the name leads. -/
theorem namedType_located {site : Site} {e whole x : Expr} {dotted : String}
    (hw : Encloses site.scope e whole) (hx : Reads site.scope whole x)
    (hd : Poses site.scope x (.name dotted)) :
    FaultsAre (t.Locates (.expr site.scope e) (some site.declaration))
      (namedType t expand site x.row dotted) := by
  have hm := hw.mentions hx hd
  have hhere {message : String}
      (hrefused : t.refusal? site.scope dotted = some message) :
      t.Locates (.expr site.scope e) (some site.declaration)
      (site.fault x.row message) :=
    hw.points hx (.name hd hrefused)
  unfold namedType
  cases hl : t.lookup site.scope dotted with
  | none => exact .stop (hhere (by rw [Symbols.refusal?, hl]))
  | some symbol =>
      cases symbol with
      | external name => exact (changeDraft_faults _ _).bind fun _ => .pure _
      | «alias» scope name value =>
          exact (h.aliased site scope name value).imp fun f hf =>
            hf.2.toAlias (.aliased hm hl hf.1)
      | cls c =>
          dsimp only
          cases henum : t.enumType c with
          | some type => exact .pure type
          | none =>
              refine ((h.cls c).imp fun f hf =>
                hf.toClass (.named hm hl henum)).bind fun _ => ?_
              exact (changeDraft_faults _ _).bind fun _ => .pure _
      | function | module =>
          exact .stop (hhere (by rw [Symbols.refusal?, hl]; rfl))

theorem annotation_located (site : Site) (e : Expr) :
    FaultsAre (t.Locates (.expr site.scope e) (some site.declaration))
      (annotationWith t expand site e) := by
  refine @annotation_matches _ composes_faults site site rfl .exhausted _
    (namedType t expand site) e
    ⟨fun whole x verdict hw hx hbad => ?_, fun whole x dotted hw hx hd => ?_⟩
  · intro α
    refine .verdict fun message hverdict => hw.points hx (.wrong ?_)
    rw [← hverdict]
    exact hbad
  · exact namedType_located h hw hx hd

theorem collectFields_located (c : ProgramClass) :
    FaultsAre (t.Locates (.cls c) none) (collectFields t expand c) := by
  have hbases : FaultsAre (t.Locates (.cls c) none)
      (baseFields expand (t.bases c)) :=
    .foldlM (fun fields b hb =>
      ((h.cls b).imp fun f hf => hf.toClass (.base hb)).bind fun _ => .pure _) _
  refine hbases.bind fun inherited =>
    (FaultsAre.foldlM (fun fields f hf => ?_) _).bind fun _ => .pure _
  have hfield :=
    (annotation_located h ⟨c.scope, c.package, c.fieldLabel f⟩ f.typeExpr).imp
    fun fault hfault => hfault.ofField hf
  have hown : FaultsAre (t.Locates (.cls c) none) (ownField t expand c f) :=
    hfield.bind fun _ => .pure _
  exact hown.bind fun _ => .pure _

theorem resolveClass_located (c : ProgramClass) :
    FaultsAre (t.Locates (.cls c) none) (resolveClass t expand c) := by
  intro s f hr
  obtain ⟨hclosed, hopened⟩ := resolveClass_steps (t := t) (s := s) expand c
  by_cases hcloses : s.Closes c
  · rw [hclosed hcloses] at hr
    cases hr
  · rw [hopened hcloses] at hr
    have hfields :=
      collectFields_located h c ((s.registered c).entering c.key) f
    rcases hcollected :
      collectFields t expand c ((s.registered c).entering c.key) with
      ⟨e | fields, s'⟩ <;> rw [hcollected] at hr hfields
    · cases hr
      exact hfields rfl
    · cases hr

theorem expandAlias_located (site : Site) (scope : Scope) (name : String)
    (value : Expr) : FaultsAre (fun f => isCall value = false ∧
      t.Locates (.expr scope value) (some site.declaration) f)
      (expandAlias t expand site scope name value) := by
  intro s f hr
  rw [expandAlias_run] at hr
  split at hr
  · cases hr
  · next hguard =>
      rw [withAlias_run] at hr
      rw [not_or] at hguard
      exact ⟨Bool.eq_false_iff.mpr hguard.1,
        annotation_located h { site with scope := scope } value _ f hr⟩

end Level

theorem levels_located (t : Symbols) (n : Nat) :
    Expansion.Located ⟨classAt t n, aliasAt t n⟩ t := by
  induction n with
  | zero => exact ⟨fun _ => .exhausted, fun _ _ _ _ => .exhausted⟩
  | succ n ih =>
      rw [levels_succ]
      refine ⟨fun c => ?_, fun site scope name value => ?_⟩
      · exact resolveClass_located ih c
      · exact expandAlias_located ih site scope name value

/-! ## Signatures -/

section Signatures

variable {t : Symbols} {c : ProgramClass}

/-- An annotation in the signature of a public method of a class,
and its label. -/
def Symbols.SignsAs (t : Symbols) (c : ProgramClass) (scope : Scope) (e : Expr)
    (label : String) : Prop :=
  ∃ d ∈ t.classChain c, d.scope = scope ∧ ∃ f ∈ d.decl.publicMethods,
    (∃ p ∈ callerParams f, p.typeExpr = some e ∧ label = paramLabel c.key f p) ∨
      returnsNothing f = false ∧ f.returns = some e ∧
        label = resultLabel c.key f

theorem Symbols.SignsAs.signs {scope : Scope} {e : Expr} {label : String}
    (h : t.SignsAs c scope e label) : t.Signs c scope e := by
  obtain ⟨d, hd, hscope, f, hf, ⟨p, hp, htype, -⟩ | ⟨hreturns, hresult, -⟩⟩ := h
  · exact ⟨d, hd, hscope, f, hf,
      List.mem_append_left _ (List.mem_filterMap.mpr ⟨p, hp, htype⟩)⟩
  · refine ⟨d, hd, hscope, f, hf, List.mem_append_right _ ?_⟩
    rw [hreturns, hresult]
    exact List.mem_singleton_self e

/-- A fault that points at a signature of a class, or to where it leads. -/
def Symbols.LocatesIn (t : Symbols) (c : ProgramClass) (f : TypeFault) : Prop :=
  ∃ scope e label, t.SignsAs c scope e label ∧
    t.Locates (.expr scope e) (some label) f

theorem describe_located {d : ProgramClass} (hd : d ∈ t.classChain c)
    {f : FunctionDef} (hf : f ∈ d.decl.publicMethods) :
    FaultsAre (t.LocatesIn c) (t.describe d c.key f) := by
  have hsigned : ∀ (site : Site) e, t.SignsAs c site.scope e site.declaration →
      FaultsAre (t.LocatesIn c) (t.annotation site e) := fun site e hsigns =>
    (annotation_located (levels_located t t.levels) site e).imp
      fun _ hlocated => ⟨_, _, _, hsigns, hlocated⟩
  unfold Symbols.describe
  extract_lets site
  refine (FaultsAre.mapM fun p hp => ?_).bind fun params => ?_
  · refine FaultsAre.bind ?_ fun _ => .pure _
    cases htype : p.typeExpr with
    | none => exact .pure _
    | some e =>
        exact hsigned (site _) e ⟨d, hd, rfl, f, hf, .inl ⟨p, hp, htype, rfl⟩⟩
  · split
    · exact .pure _
    · next hreturns =>
        refine FaultsAre.bind (.map ?_) fun _ => .pure _
        cases hresult : f.returns with
        | none => exact .pure _
        | some e =>
            exact hsigned (site _) e
              ⟨d, hd, rfl, f, hf,
                .inr ⟨Bool.eq_false_iff.mpr hreturns, hresult, rfl⟩⟩

theorem boundMethods_located (t : Symbols) (c : ProgramClass) :
    FaultsAre (t.LocatesIn c) (t.boundMethods c) := by
  rw [boundMethods_eq]
  refine FaultsAre.bind (.foldlM (fun methods d hd => ?_) _)
    fun described s fault hr => ?_
  · refine (expect_faults _).bind fun _ => .foldlM (fun methods f hf => ?_) _
    exact (describe_located hd hf).bind fun _ => .pure _
  · rw [addDescribed_run] at hr
    cases hr

end Signatures

/-! ## Where annotations are written -/

/-- An annotation of a field of a class of the program, or the
value of an alias. -/
inductive Symbols.Writes (t : Symbols) : Scope → Expr → Prop where
  | field {c : ProgramClass} {f : FieldDecl} (declared : t.Declares c)
      (own : f ∈ c.decl.fields) : Writes t c.scope f.typeExpr
  | value {scope : Scope} {name : String} {value : Expr}
      (declared : t.DeclaresAlias scope name value) : Writes t scope value

/-- An item that is part of the program. -/
def Symbols.Holds (t : Symbols) : Item → Prop
  | .cls c => t.Declares c
  | .expr scope _ => t.Has scope

section Written

variable {t : Symbols} (hk : t.Keyed) {a b : Item}

include hk

theorem Symbols.Leads.writes {scope : Scope} {e : Expr}
    (h : t.Leads a (.expr scope e)) (ha : t.Holds a) : t.Writes scope e := by
  cases h with
  | field declared => exact .field ha declared
  | aliased _ stands => exact .value (Symbols.owns_lookup hk ha stands)

theorem Symbols.Leads.holds (h : t.Leads a b) (ha : t.Holds a) : t.Holds b := by
  cases h with
  | base isBase => exact Symbols.declares_bases hk ha isBase
  | field declared => exact Symbols.Declares.inTree ha
  | named _ stands => exact Symbols.owns_lookup hk ha stands
  | aliased _ stands => exact (Symbols.owns_lookup hk ha stands).inTree

/-- What an item leads to is itself or is written in the program. -/
theorem Symbols.Reaches.writes {scope : Scope} {e : Expr}
    (h : t.Reaches a (.expr scope e)) (ha : t.Holds a) :
    a = .expr scope e ∨ t.Writes scope e := by
  have hholds : ∀ {b}, t.Reaches a b → t.Holds b := by
    intro b hb
    induction hb with
    | refl => exact ha
    | tail _ hlead ih => exact hlead.holds hk ih
  rcases Relation.ReflTransGen.cases_tail h with hsame | ⟨b, hreach, hlead⟩
  · exact .inl hsame.symm
  · exact .inr (hlead.writes hk (hholds hreach))

end Written

theorem Symbols.source_mem {p : Program} {scope : Scope}
    (h : (ofProgram p).Has scope) : scope.source ∈ p.files := by
  obtain ⟨s, hs, -, hscope⟩ := source_of_scope h
  rw [hscope]
  exact hs

theorem Symbols.Writes.inTree {t : Symbols} {scope : Scope} {e : Expr}
    (h : t.Writes scope e) : t.Has scope := by
  cases h with
  | field declared => exact declared.inTree
  | value declared => exact declared.inTree

theorem Symbols.Signs.inTree {t : Symbols} (hk : t.Keyed) {c : ProgramClass}
    (hc : t.Declares c) {scope : Scope} {e : Expr} (h : t.Signs c scope e) :
    t.Has scope := by
  obtain ⟨d, hd, rfl, -⟩ := h
  exact (Symbols.declares_chainAt hk hc hd).inTree

/-- Whatever store a call finds, its fault has the package and the path of the
file in which the annotation to blame is written, and the message and the row of
a part of it, unless that is in a text that the annotation quotes: then it is
the row in the text. The label is that of the field, parameter or result whose
annotation comes down to the one to blame. -/
theorem faults_point (p : Program) :
    (∀ c, (Symbols.ofProgram p).Declares c → ∀ s f,
      ((Symbols.ofProgram p).resolve c s).1 = .error (.fault f) →
      ∃ scope e, scope.source ∈ p.files ∧ (Symbols.ofProgram p).Writes scope e ∧
        (Symbols.ofProgram p).Reaches (.cls c) (.expr scope e) ∧
        (Symbols.ofProgram p).Points scope e f ∧
        ∃ label, f.declaration = some label ∧
          (Symbols.ofProgram p).OfField (.cls c) scope e label) ∧
    (∀ site e, (Symbols.ofProgram p).Has site.scope → ∀ s f,
      (Symbols.annotation (Symbols.ofProgram p) site e s).1 =
      .error (.fault f) → ∃ scope e', scope.source ∈ p.files ∧
        (scope = site.scope ∧ e' = e ∨ (Symbols.ofProgram p).Writes scope e') ∧
        (Symbols.ofProgram p).Reaches (.expr site.scope e) (.expr scope e') ∧
        (Symbols.ofProgram p).Points scope e' f ∧
        ∃ label, f.declaration = some label ∧
          ((Symbols.ofProgram p).OfField (.expr site.scope e) scope e' label ∨
            label = site.declaration ∧
            (Symbols.ofProgram p).UnfoldsTo site.scope e scope e')) ∧
    ∀ c, (Symbols.ofProgram p).Declares c → ∀ s f,
      ((Symbols.ofProgram p).boundMethods c s).1 = .error (.fault f) →
      ∃ scope e, scope.source ∈ p.files ∧
        ((Symbols.ofProgram p).Signs c scope e ∨
          (Symbols.ofProgram p).Writes scope e) ∧
        (Symbols.ofProgram p).Points scope e f ∧
        ∃ home root own label, f.declaration = some label ∧
          (Symbols.ofProgram p).SignsAs c home root own ∧
          ((Symbols.ofProgram p).OfField (.expr home root) scope e label ∨
            label = own ∧
            (Symbols.ofProgram p).UnfoldsTo home root scope e) := by
  have hk := Symbols.keyed_ofProgram p
  have hlevels :=
    levels_located (Symbols.ofProgram p) (Symbols.ofProgram p).levels
  -- in all three what is located is reached from where the call starts, so it
  -- is that itself or it is written in the program, and only an annotation can
  -- be the start itself
  refine ⟨fun c hc s f hf => ?_, fun site e hsite s f hf => ?_,
    fun c hc s f hf => ?_⟩
  · obtain ⟨scope, e, label, hlabel, hpoints, hfield | ⟨-, _, _, hitem, -⟩⟩ :=
      hlevels.cls c s f hf
    · rcases hfield.reaches.writes hk hc with hsame | hwrites
      · cases hsame
      · exact ⟨scope, e, Symbols.source_mem hwrites.inTree, hwrites,
          hfield.reaches, hpoints, label, hlabel, hfield⟩
    · cases hitem
  · obtain ⟨scope, e', label, hlabel, hpoints, hfor⟩ :=
      annotation_located hlevels site e s f hf
    obtain ⟨hreach, hfor⟩ := Symbols.comesFrom hfor
    rcases Symbols.Reaches.writes hk hreach hsite with hsame | hwrites
    · cases hsame
      exact ⟨_, _, Symbols.source_mem hsite, .inl ⟨rfl, rfl⟩, hreach, hpoints,
        label, hlabel, hfor⟩
    · exact ⟨scope, e', Symbols.source_mem hwrites.inTree, .inr hwrites, hreach,
        hpoints, label, hlabel, hfor⟩
  · obtain ⟨home, root, own, hsigns, scope, e, label, hlabel, hpoints, hfor⟩ :=
      boundMethods_located (Symbols.ofProgram p) c s f hf
    obtain ⟨hreach, hfor⟩ := Symbols.comesFrom hfor
    have hhome := hsigns.signs.inTree hk hc
    rcases Symbols.Reaches.writes hk hreach hhome with hsame | hwrites
    · cases hsame
      exact ⟨_, _, Symbols.source_mem hhome, .inl hsigns.signs, hpoints, _, _,
        own, label, hlabel, hsigns, hfor⟩
    · exact ⟨scope, e, Symbols.source_mem hwrites.inTree, .inr hwrites, hpoints,
        _, _, own, label, hlabel, hsigns, hfor⟩

namespace Sample

/-- The fault with which a step has stopped. -/
def fault? {α : Type} : Except Stop α → Option TypeFault
  | .error (.fault f) => some f
  | _ => none

theorem error_of_fault? {α : Type} {x : Except Stop α} {f : TypeFault}
    (h : fault? x = some f) : x = .error (.fault f) := by
  unfold fault? at h
  split at h
  · cases h
    rfl
  · cases h

/-- A list over three rows, of something that is not declared. -/
def missingList : Expr :=
  .subscript ⟨1, 8⟩ (.name ⟨1, 8⟩ "list") (.name ⟨2, 4⟩ "Missing")

def shapesSource : Source :=
  source "shapes" "shapes" [.assign ⟨⟨1, 0⟩, 3⟩ [name "Shape"] missingList]

def shapedCls : ClassDef :=
  cls "Holder" []
    [.annAssign ⟨⟨3, 4⟩, 3⟩ (name "item") (.name ⟨3, 10⟩ "Shape") none]

def shapedSource : Source := source "main" "main"
  [.importFrom (some "shapes") 0 [⟨"Shape", none⟩], .cls shapedCls]

/-- A class whose field has the type of an alias in another package. -/
def shaped : Program := program [shapedSource, shapesSource]

theorem shaped_symbols : Symbols.ofProgram shaped =
    ⟨.ofList [("main", .ofSource shapedSource),
      ("shapes", .ofSource shapesSource)]⟩ :=
  symbols_apart (f := shapedSource) (g := shapesSource) (by decide) (by decide)

/-- The fault is in the second row of the other file, where the name stands. -/
theorem shaped_fault : ∃ c f scope e, (Symbols.ofProgram shaped).Declares c ∧
    ((Symbols.ofProgram shaped).resolve c freshStore).1 = .error (.fault f) ∧
    f.package = "shapes" ∧ f.path = some "shapes" ∧ f.row = some 2 ∧
    scope.source ∈ shaped.files ∧ (Symbols.ofProgram shaped).Writes scope e ∧
    (Symbols.ofProgram shaped).Points scope e f := by
  have hdeclares : (Symbols.ofProgram shaped).Declares
      ⟨.ofSource shapedSource, shapedCls⟩ := by
    rw [shaped_symbols]
    exact ⟨rfl, rfl⟩
  have hfault :
      (fault? ((Symbols.ofProgram shaped).resolve
        ⟨.ofSource shapedSource, shapedCls⟩
      freshStore).1).map (fun f => (f.package, f.path, f.row)) =
        some ("shapes", some "shapes", some 2) := by
    rw [shaped_symbols]
    decide +kernel
  obtain ⟨f, hf, hplace⟩ := Option.map_eq_some_iff.mp hfault
  have hstop := error_of_fault? hf
  obtain ⟨scope, e, hfile, hwrites, -, hpoints, -⟩ :=
    (faults_point shaped).1 _ hdeclares _ f hstop
  simp only [Prod.mk.injEq] at hplace
  exact ⟨_, f, scope, e, hdeclares, hstop, hplace.1, hplace.2.1, hplace.2.2,
    hfile, hwrites, hpoints⟩

/-- The second row of the file; its text has one row only. -/
def missingText : Expr := .constant ⟨2, 10⟩ (.text "Missing" false)

def astrayCls : ClassDef :=
  cls "Holder" [] [.annAssign ⟨⟨2, 4⟩, 2⟩ (name "item") missingText none]

def astraySource : Source := source "main" "main" [.cls astrayCls]

def astray : Program := program [astraySource]

/-- The fault of the text points to the first row, but all of the annotation is
in the second. -/
theorem astray_row : ∃ c f, (Symbols.ofProgram astray).Declares c ∧
    c.decl.fields.map (·.typeExpr.row) = [2] ∧
    (∀ x, Reads c.scope missingText x → x.row = 2) ∧
    ((Symbols.ofProgram astray).resolve c freshStore).1 = .error (.fault f) ∧
    f.path = some "main" ∧ f.row = some 1 := by
  have hdeclares : (Symbols.ofProgram astray).Declares
      ⟨.ofSource astraySource, astrayCls⟩ := by
    rw [astray, symbols_source]
    exact ⟨rfl, rfl⟩
  have hfault :
      (fault? ((Symbols.ofProgram astray).resolve
        ⟨.ofSource astraySource, astrayCls⟩
      freshStore).1).map (fun f => (f.path, f.row)) =
      some (some "main", some 1) := by
    decide +kernel
  obtain ⟨f, hf, hplace⟩ := Option.map_eq_some_iff.mp hfault
  simp only [Prod.mk.injEq] at hplace
  refine ⟨_, f, hdeclares, rfl, fun x hx => ?_, error_of_fault? hf, hplace⟩
  cases hx with
  | whole => rfl

end Sample

end BridgeBindings
