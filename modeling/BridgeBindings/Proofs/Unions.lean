import BridgeBindings.Proofs.Typing

/-!
# Spellings of unions

A union is written with `|`, as `Union` or as `Optional`, and unions may be
members of others. What it stands for is told by its members when all of this is
taken apart: the one type that they have in common, if there is one, in a
pointer if nothing is among them.

The reader takes apart only what `|` joins; a `Union` or an `Optional` that is
part of another union counts as one type. For the common type this makes no
difference, but a part with nothing among its members is a pointer by then. So
the spellings agree as long as nothing is written in the outermost union only.
-/

namespace BridgeBindings

open Syntax

/-! ## The type that a list of types holds -/

namespace Members

theorem single_of_all {types : List TypeRef} {t : TypeRef} (hne : types ≠ [])
    (hall : ∀ x ∈ types, x = t) : single types = t := by
  cases types with
  | nil => exact absurd rfl hne
  | cons x rest =>
      have hx : x = t := hall x List.mem_cons_self
      rw [single, if_pos, hx]
      rw [List.all_eq_true]
      intro y hy
      exact decide_eq_true ((hall y (List.mem_cons_of_mem x hy)).trans hx.symm)

theorem single_of_not {types : List TypeRef} (h : ¬∃ t, ∀ x ∈ types, x = t) :
    single types = .any := by
  cases types with
  | nil => rfl
  | cons x rest =>
      rw [single, if_neg]
      intro hall
      rw [List.all_eq_true] at hall
      refine h ⟨x, fun y hy => ?_⟩
      rcases List.mem_cons.mp hy with rfl | hy
      · rfl
      · exact of_decide_eq_true (hall y hy)

/-- Neither order nor repetition matters. -/
theorem single_congr {types types' : List TypeRef}
    (h : ∀ x, x ∈ types ↔ x ∈ types') : single types = single types' := by
  by_cases hall : ∃ t, ∀ x ∈ types, x = t
  · obtain ⟨t, hall⟩ := hall
    by_cases hne : types = []
    · have hne' : types' = [] :=
        List.eq_nil_iff_forall_not_mem.mpr fun x hx => by
        rw [← h, hne] at hx
        cases hx
      rw [hne, hne']
    · have hne' : types' ≠ [] := by
        rintro rfl
        exact hne (List.eq_nil_iff_forall_not_mem.mpr fun x hx => by
          rw [h] at hx
          cases hx)
      rw [single_of_all hne hall, single_of_all hne' fun x hx =>
        hall x ((h x).mpr hx)]
  · rw [single_of_not hall, single_of_not]
    rintro ⟨t, hall'⟩
    exact hall ⟨t, fun x hx => hall' x ((h x).mp hx)⟩

/-- Types that may stand for each other wherever they are part of a union. -/
structure Same (types types' : List TypeRef) : Prop where
  empty : types = [] ↔ types' = []
  single : ∀ before after, single (before ++ types ++ after) =
      single (before ++ types' ++ after)

theorem Same.refl (types : List TypeRef) : Same types types :=
  ⟨Iff.rfl, fun _ _ => rfl⟩

theorem Same.append {types types' more more' : List TypeRef}
    (h : Same types types') (h' : Same more more') :
    Same (types ++ more) (types' ++ more') := by
  refine ⟨by rw [List.append_eq_nil_iff, List.append_eq_nil_iff,
    h.empty, h'.empty], fun before after => ?_⟩
  have hfirst := h.single before (more ++ after)
  have hsecond := h'.single (before ++ types') after
  simp only [List.append_assoc] at hfirst hsecond ⊢
  exact hfirst.trans hsecond

/-- The type of a union stands for its members. -/
theorem Same.collapse {types types' : List TypeRef} (h : Same types types')
    (hne : types' ≠ []) : Same [Members.single types] types' := by
  refine ⟨⟨fun h => absurd h (List.cons_ne_nil _ _), fun h => absurd h hne⟩,
    fun before after => ?_⟩
  rw [← h.single]
  have hne' : types ≠ [] := fun he => hne (h.empty.mp he)
  by_cases hall : ∃ t, ∀ x ∈ types, x = t
  · obtain ⟨t, hall⟩ := hall
    rw [single_of_all hne' hall]
    refine single_congr fun x => ?_
    have hx : x ∈ types ↔ x = t := by
      refine ⟨hall x, ?_⟩
      rintro rfl
      obtain ⟨y, hy⟩ := List.exists_mem_of_ne_nil types hne'
      rwa [← hall y hy]
    simp only [List.mem_append, List.mem_singleton, hx]
  · rw [single_of_not hall]
    have hmany : Members.single (before ++ types ++ after) = .any := by
      refine single_of_not fun ⟨t, ht⟩ => hall ⟨t, fun x hx => ht x ?_⟩
      exact List.mem_append_left _ (List.mem_append_right _ hx)
    rw [hmany]
    by_cases hcommon : ∃ t, ∀ x ∈ before ++ [TypeRef.any] ++ after, x = t
    · obtain ⟨t, hcommon⟩ := hcommon
      have hany : TypeRef.any = t := hcommon _ (by simp)
      rw [single_of_all (by simp) hcommon, hany]
    · exact single_of_not hcommon

/-- Members that may stand for these types, and say whether nothing
is among them. -/
structure StandsFor (m : Members) (types : List TypeRef) (optional : Bool) :
    Prop where
  optional : m.optional = optional
  same : Same m.types types

theorem StandsFor.append {m m' : Members}
    {types types' : List TypeRef} {o o' : Bool} (h : m.StandsFor types o)
    (h' : m'.StandsFor types' o') :
    (m.append m').StandsFor (types ++ types') (o || o') :=
  ⟨by rw [← h.optional, ← h'.optional]; rfl, h.same.append h'.same⟩

theorem StandsFor.type {m : Members} {types : List TypeRef} {o : Bool}
    (h : m.StandsFor types o) : m.type = Members.type ⟨types, o⟩ := by
  have hsingle := h.same.single [] []
  simp only [List.nil_append, List.append_nil] at hsingle
  unfold Members.type
  rw [h.optional, hsingle]

end Members

/-! ## Taking unions apart -/

/-- The members of a union, and whether nothing is among them. -/
structure Flat where
  members : List Expr
  optional : Bool

namespace Flat

/-- A union of one member. -/
def one (e : Expr) : Flat := ⟨[e], false⟩

/-- A union without members, but with nothing in it. -/
def nothing : Flat := ⟨[], true⟩

/-- The members of two unions, and nothing if it is in either. -/
def append (a b : Flat) : Flat :=
  ⟨a.members ++ b.members, a.optional || b.optional⟩

end Flat

/-- What stands for nothing. -/
def readsAsNothing : Expr → Bool
  | .constant _ .none => true
  | .constant _ (.text text _) => text = "None"
  | _ => false

/-- A name that has this meaning in the language or in a typing module. -/
def isHead (scope : Scope) (value : Expr) (name : String) : Bool :=
  value.dotted?.bind (builtinName scope) = some name

mutual

/-- The members of a union, those of all unions among them included. What is no
union is its own member. -/
def flatten (scope : Scope) : Expr → Flat
  | .constant _ .none => .nothing
  | .constant pos (.text text marked) =>
    if text = "None" then .nothing else .one (.constant pos (.text text marked))
  | .binary _ left .bitOr right =>
      (flatten scope left).append (flatten scope right)
  | .subscript pos value (.tuple at_ elts) =>
    if isHead scope value "Union" && !elts.isEmpty then flattenAll scope elts
    else .one (.subscript pos value (.tuple at_ elts))
  | .subscript pos value index =>
    if isHead scope value "Optional" then ⟨(flatten scope index).members, true⟩
    else if isHead scope value "Union" then flatten scope index
    else .one (.subscript pos value index)
  | e => .one e

/-- The members of some annotations, taken apart. -/
def flattenAll (scope : Scope) : List Expr → Flat
  | [] => ⟨[], false⟩
  | e :: es => (flatten scope e).append (flattenAll scope es)

end

section Forms

variable {scope : Scope} {pos : Position} {value : Expr}

theorem flatten_optional {index : Expr}
    (head : isHead scope value "Optional" = true)
    (noTuple : ∀ at_ elts, index = .tuple at_ elts → False) :
    flatten scope (.subscript pos value index) =
    ⟨(flatten scope index).members, true⟩ := by
  rw [flatten, if_pos head]
  exact noTuple

theorem flatten_union {at_ : Position} {elts : List Expr}
    (head : isHead scope value "Union" = true) (some : elts ≠ []) :
    flatten scope (.subscript pos value (.tuple at_ elts)) =
    flattenAll scope elts := by
  rw [flatten, if_pos]
  rw [head, Bool.true_and, Bool.not_eq_true', List.isEmpty_eq_false_iff]
  exact some

theorem flatten_nothing {none : Expr} (h : readsAsNothing none = true) :
    flatten scope none = .nothing := by
  unfold readsAsNothing at h
  split at h
  · rw [flatten]
  · rw [flatten, if_pos (of_decide_eq_true h)]
  · cases h

end Forms

/-- A part of a union that is nothing, or has nothing nowhere
among its members. -/
def Whole (scope : Scope) (e : Expr) : Prop :=
  readsAsNothing e = true ∨ (flatten scope e).optional = false

/-- A side of `|`, which may be joined by `|` itself. -/
inductive Side (scope : Scope) : Expr → Prop where
  | part {e : Expr} (h : Whole scope e) : Side scope e
  | join {pos : Position} {left right : Expr} (hl : Side scope left)
      (hr : Side scope right) : Side scope (.binary pos left .bitOr right)

/-- An annotation in which nothing is written in the outermost union only. -/
inductive Outermost (scope : Scope) : Expr → Prop where
  | never {e : Expr} (h : (flatten scope e).optional = false) :
      Outermost scope e
  | join {pos : Position} {left right : Expr} (hl : Side scope left)
      (hr : Side scope right) : Outermost scope (.binary pos left .bitOr right)
  | optional {pos : Position} {value index : Expr}
      (head : isHead scope value "Optional" = true)
      (noTuple : arguments index = [index]) (h : Whole scope index) :
      Outermost scope (.subscript pos value index)
  | union {pos : Position} {value index : Expr}
      (head : isHead scope value "Union" = true) (some : arguments index ≠ [])
      (h : ∀ x ∈ arguments index, Whole scope x) :
      Outermost scope (.subscript pos value index)

theorem Side.sides {scope : Scope} {pos : Position} {left right : Expr}
    (h : Side scope (.binary pos left .bitOr right)) :
    Side scope left ∧ Side scope right := by
  cases h with
  | join hl hr => exact ⟨hl, hr⟩
  | part h =>
      rcases h with h | h
      · cases h
      · rw [flatten] at h
        obtain ⟨hl, hr⟩ := Bool.or_eq_false_iff.mp h
        exact ⟨.part (.inr hl), .part (.inr hr)⟩

theorem Outermost.sides {scope : Scope} {pos : Position} {left right : Expr}
    (h : Outermost scope (.binary pos left .bitOr right)) :
    Side scope left ∧ Side scope right := by
  cases h with
  | never h => exact (Side.part (.inr h)).sides
  | join hl hr => exact ⟨hl, hr⟩

theorem isHead_apart {scope : Scope} {value : Expr}
    (h : isHead scope value "Optional" = true)
    (h' : isHead scope value "Union" = true) : False := by
  unfold isHead at h h'
  rw [of_decide_eq_true h] at h'
  exact absurd (of_decide_eq_true h') (by decide)

/-! ## Readings that stand for their members -/

/-- What the arguments of a `Union` add up to. -/
def together (readings : List Reading) : Members :=
  (readings.map Reading.argument).foldl Members.append ⟨[], false⟩

theorem together_cons (r : Reading) (rs : List Reading) :
    together (r :: rs) = r.argument.append (together rs) := by
  have hfold : ∀ (ms : List Members) (m : Members),
      ms.foldl Members.append m =
      m.append (ms.foldl Members.append ⟨[], false⟩) := by
    intro ms
    induction ms with
    | nil =>
        intro m
        simp [Members.append]
    | cons n ms ih =>
        intro m
        rw [List.foldl_cons, List.foldl_cons, ih, ih (Members.append _ n)]
        simp [Members.append, List.append_assoc, Bool.or_assoc]
  unfold together
  rw [List.map_cons, List.foldl_cons, hfold]
  simp [Members.append]

theorem Reading.argument_types_ne {r : Reading}
    (h : r.argument.optional = false) : r.argument.types ≠ [] := by
  cases r with
  | nothing => cases h
  | type t => exact List.cons_ne_nil _ _
  | union m => exact List.cons_ne_nil _ _

theorem Reading.toType_of_argument {r : Reading}
    {types : List TypeRef} {o : Bool} (h : r.argument.StandsFor types o) :
    r.toType = Members.single types := by
  have hsingle := h.same.single [] []
  simp only [List.nil_append, List.append_nil] at hsingle
  rw [← hsingle]
  cases r with
  | nothing => rfl
  | type t => rfl
  | union m => rfl

/-- A reading that stands for types of the members of an annotation, as
far as it may. -/
structure Stands (scope : Scope) (e : Expr) (r : Reading)
    (types : List TypeRef) : Prop where
  part : Whole scope e → r.argument.StandsFor types (flatten scope e).optional
  side : Side scope e → r.side.StandsFor types (flatten scope e).optional
  whole : Outermost scope e →
      r.toType = Members.type ⟨types, (flatten scope e).optional⟩

/-- The same of arguments of a `Union`. -/
structure StandAll (scope : Scope) (es : List Expr) (rs : List Reading)
    (types : List TypeRef) : Prop where
  parts : (∀ e ∈ es, Whole scope e) →
    (together rs).StandsFor types (flattenAll scope es).optional
  some : es ≠ [] → (flattenAll scope es).optional = false → types ≠ []

section Standing

variable {scope : Scope} {e : Expr} {r : Reading} {types : List TypeRef}

/-- A type that is the common one of all members, none of which is nothing. -/
theorem stands_single {t : TypeRef} (hne : types ≠ [])
    (ht : t = Members.single types)
    (hopt : (flatten scope e).optional = false) :
    Stands scope e (.type t) types := by
  have hpart : Members.StandsFor ⟨[t], false⟩ types
      (flatten scope e).optional := by
    rw [hopt, ht]
    exact ⟨rfl, (Members.Same.refl types).collapse hne⟩
  refine ⟨fun _ => hpart, fun _ => hpart, fun _ => ?_⟩
  rw [hopt]
  exact ht

theorem stands_one {t : TypeRef} (hflat : flatten scope e = .one e) :
    Stands scope e (.type t) [t] :=
  stands_single (List.cons_ne_nil _ _) rfl (by rw [hflat]; rfl)

theorem stands_nothing {pos : Position} {value : Constant}
    (hflat : flatten scope (.constant pos value) = .nothing) :
    Stands scope (.constant pos value) .nothing [] := by
  have hopt : (flatten scope (.constant pos value)).optional = true := by
    rw [hflat]; rfl
  have hstands : Members.StandsFor ⟨[], true⟩
      [] (flatten scope (.constant pos value)).optional :=
    ⟨hopt.symm, .refl []⟩
  refine ⟨fun _ => hstands, fun _ => hstands, fun h => ?_⟩
  cases h with
  | never h => rw [hopt] at h; cases h

theorem Stands.types_ne (h : Stands scope e r types)
    (hopt : (flatten scope e).optional = false) : types ≠ [] := by
  have hpart := h.part (.inr hopt)
  intro he
  exact Reading.argument_types_ne (hpart.optional.trans hopt)
    (hpart.same.empty.mpr he)

theorem Stands.join {left right : Expr} {a b : Reading} {tl tr : List TypeRef}
    (pos : Position) (hl : Stands scope left a tl)
    (hr : Stands scope right b tr) :
    Stands scope (.binary pos left .bitOr right) (a.join b) (tl ++ tr) := by
  have hflat : (flatten scope (.binary pos left .bitOr right)).optional =
      ((flatten scope left).optional || (flatten scope right).optional) := by
    rw [flatten]
    rfl
  have hside : ∀ {e'}, e' = .binary pos left .bitOr right →
      Side scope left ∧ Side scope right →
      (a.join b).side.StandsFor (tl ++ tr) (flatten scope e').optional := by
    rintro e' rfl ⟨hsl, hsr⟩
    rw [hflat]
    exact (hl.side hsl).append (hr.side hsr)
  refine ⟨fun hw => ?_, fun hs => hside rfl hs.sides, fun hw =>
    (hside rfl hw.sides).type⟩
  rcases hw with hw | hopt
  · cases hw
  · have htype := (hside rfl (Side.part (.inr hopt)).sides).type
    rw [hopt] at htype
    have hne : tl ++ tr ≠ [] := by
      rw [hflat] at hopt
      exact List.append_ne_nil_of_left_ne_nil
        (hl.types_ne (Bool.or_eq_false_iff.mp hopt).1) tr
    exact (stands_single hne htype hopt).part (.inr hopt)

variable {value index : Expr}

theorem Stands.optional (pos : Position)
    (head : isHead scope value "Optional" = true)
    (hflat : flatten scope (.subscript pos value index) =
      ⟨(flatten scope index).members, true⟩)
    (h : Stands scope index r types) :
    Stands scope (.subscript pos value index)
      (.type (.pointer r.toType)) types := by
  have hopt : (flatten scope (.subscript pos value index)).optional = true := by
    rw [hflat]
  have hnever : ¬Whole scope (.subscript pos value index) := by
    rintro (hw | hw)
    · cases hw
    · rw [hopt] at hw
      cases hw
  refine ⟨fun hw => absurd hw hnever, fun hs => ?_, fun hw => ?_⟩
  · cases hs with
    | part hw => exact absurd hw hnever
  · rw [hopt]
    have hpart : Whole scope index := by
      cases hw with
      | never hw => exact absurd (.inr hw) hnever
      | optional _ _ hpart => exact hpart
      | union head' => exact (isHead_apart head head').elim
    exact congrArg TypeRef.pointer (Reading.toType_of_argument (h.part hpart))

theorem StandAll.nil : StandAll scope [] [] [] :=
  ⟨fun _ => ⟨by rw [flattenAll]; rfl, .refl []⟩, fun h => absurd rfl h⟩

theorem Stands.cons {es : List Expr} {rs : List Reading} {more : List TypeRef}
    (h : Stands scope e r types) (hs : StandAll scope es rs more) :
    StandAll scope (e :: es) (r :: rs) (types ++ more) := by
  have hflat : (flattenAll scope (e :: es)).optional =
      ((flatten scope e).optional || (flattenAll scope es).optional) := by
    rw [flattenAll]
    rfl
  refine ⟨fun hw => ?_, fun _ hopt => ?_⟩
  · rw [together_cons, hflat]
    exact (h.part (hw e List.mem_cons_self)).append
      (hs.parts fun x hx => hw x (List.mem_cons_of_mem e hx))
  · rw [hflat] at hopt
    exact List.append_ne_nil_of_left_ne_nil
      (h.types_ne (Bool.or_eq_false_iff.mp hopt).1) more

theorem flattenAll_singleton (scope : Scope) (e : Expr) :
    flattenAll scope [e] = flatten scope e := by
  rw [flattenAll, flattenAll]
  simp [Flat.append]

theorem whole_of_never {es : List Expr}
    (hopt : (flattenAll scope es).optional = false) :
    ∀ x ∈ es, Whole scope x := by
  induction es with
  | nil => exact fun x hx => absurd hx List.not_mem_nil
  | cons e es ih =>
      rw [flattenAll] at hopt
      obtain ⟨he, hes⟩ := Bool.or_eq_false_iff.mp hopt
      intro x hx
      rcases List.mem_cons.mp hx with rfl | hx
      · exact .inr he
      · exact ih hes x hx

theorem StandAll.union {rs : List Reading} (pos : Position)
    (head : isHead scope value "Union" = true) (some : arguments index ≠ [])
    (hflat : flatten scope (.subscript pos value index) =
      flattenAll scope (arguments index))
    (h : StandAll scope (arguments index) rs types) :
    Stands scope (.subscript pos value index) (.type (unionType rs)) types := by
  have hnever : (flattenAll scope (arguments index)).optional = false →
      Stands scope (.subscript pos value index)
      (.type (unionType rs)) types := by
    intro hopt
    have htype := (h.parts (whole_of_never hopt)).type
    rw [hopt] at htype
    exact stands_single (h.some some hopt) htype (by rw [hflat, hopt])
  have hwhole : Whole scope (.subscript pos value index) →
      (flattenAll scope (arguments index)).optional = false := by
    rintro (hw | hw)
    · cases hw
    · rwa [hflat] at hw
  refine ⟨fun hw => (hnever (hwhole hw)).part hw, fun hs => ?_, fun hw => ?_⟩
  · cases hs with
    | part hw => exact (hnever (hwhole hw)).side (.part hw)
  · cases hw with
    | never hw => exact (hnever (hwhole (.inr hw))).whole (.never hw)
    | optional head' => exact (isHead_apart head' head).elim
    | union _ _ hparts =>
        rw [hflat]
        exact (h.parts hparts).type

end Standing

/-! ## Reading the members -/

section Reading

variable {names : Names} {site : Site}

/-- The type of an annotation that stands on its own. -/
def typeOf (names : Names) (site : Site) (e : Expr) : Resolve TypeRef :=
  Reading.toType <$> readExpr names site e

/-- A reading is put together from the types of the members. -/
def ReadsFlat (names : Names) (site : Site) (e : Expr) : Prop :=
  ∃ f : List TypeRef → Reading,
    readExpr names site e = f <$> (flatten site.scope e).members.mapM
      (typeOf names site) ∧ ∀ types : List TypeRef,
        types.length = (flatten site.scope e).members.length →
        Stands site.scope e (f types) types

/-- The readings of some annotations are put together from the types
of the members. -/
def ReadAllFlat (names : Names) (site : Site) (es : List Expr) : Prop :=
  ∃ f : List TypeRef → List Reading,
    es.mapM (readExpr names site) =
        f <$> (flattenAll site.scope es).members.mapM (typeOf names site) ∧
      ∀ types : List TypeRef, types.length =
        (flattenAll site.scope es).members.length →
          StandAll site.scope es (f types) types

theorem mapM_both {α β γ : Type} (step : Expr → Resolve TypeRef)
    (xs ys : List Expr) (f : List TypeRef → α) (g : List TypeRef → β)
    (join : α → β → γ) : (do
      let a ← f <$> xs.mapM step
      let b ← g <$> ys.mapM step
      return join a b) =
      (fun types =>
        join (f (types.take xs.length)) (g (types.drop xs.length))) <$>
        (xs ++ ys).mapM step := by
  simp only [List.mapM_append, map_eq_pure_bind, bind_assoc, pure_bind]
  refine Plan.mapM_congr fun types htypes => bind_congr fun more => ?_
  rw [← htypes, List.take_left, List.drop_left]

/-- What is neither nothing nor joined by a bar has a type of its own. -/
theorem readExpr_typed {e : Expr} (hnothing : readsAsNothing e = false)
    (hjoin : ∀ pos left right, e ≠ .binary pos left .bitOr right) :
    readExpr names site e = .type <$> typeOf names site e := by
  have hown : ∃ step, readExpr names site e = .type <$> step := by
    cases hname : readsAsName e with
    | true => exact ⟨_, readExpr_asName hname⟩
    | false =>
        cases e with
        | subscript pos value index =>
            exact ⟨_, readExpr_subscript pos value index⟩
        | constant pos value =>
            cases value with
            | none => cases hnothing
            | text text marked =>
                rw [readExpr, if_neg (of_decide_eq_false hnothing)]
                exact ⟨_, rfl⟩
            | torn value marked => exact ⟨throw (.broken .surrogate), rfl⟩
            | _ => exact ⟨pure .any, rfl⟩
        | binary pos left op right =>
            cases op with
            | bitOr => exact absurd rfl (hjoin pos left right)
            | _ => cases hname
        | _ => cases hname
  obtain ⟨step, hstep⟩ := hown
  unfold typeOf
  rw [hstep, Functor.map_map, Functor.map_map]
  rfl

theorem readsFlat_one {e : Expr} (hnothing : readsAsNothing e = false)
    (hjoin : ∀ pos left right, e ≠ .binary pos left .bitOr right)
    (hflat : flatten site.scope e = .one e) : ReadsFlat names site e := by
  refine ⟨fun types => .type (types.headD .any), ?_, fun types hlength => ?_⟩
  · rw [hflat, readExpr_typed hnothing hjoin]
    simp [Flat.one]
  · rw [hflat] at hlength
    obtain ⟨t, rfl⟩ := List.length_eq_one_iff.mp hlength
    exact stands_one hflat

theorem readExpr_nothing {none : Expr} (h : readsAsNothing none = true) :
    readExpr names site none = pure .nothing := by
  unfold readsAsNothing at h
  split at h
  · rw [readExpr]
  · rw [readExpr, if_pos (of_decide_eq_true h)]
  · cases h

theorem readsFlat_nothing {pos : Position} {value : Constant}
    (h : readsAsNothing (.constant pos value) = true) :
    ReadsFlat names site (.constant pos value) := by
  refine ⟨fun _ => .nothing, ?_, fun types hlength => ?_⟩
  · rw [readExpr_nothing h, flatten_nothing h]
    rfl
  · rw [flatten_nothing h] at hlength
    rw [List.length_eq_zero_iff.mp hlength]
    exact stands_nothing (flatten_nothing h)

theorem ReadsFlat.join {left right : Expr} (pos : Position)
    (hl : ReadsFlat names site left) (hr : ReadsFlat names site right) :
    ReadsFlat names site (.binary pos left .bitOr right) := by
  obtain ⟨f, hf, hfs⟩ := hl
  obtain ⟨g, hg, hgs⟩ := hr
  have hflat : (flatten site.scope (.binary pos left .bitOr right)).members =
      (flatten site.scope left).members ++
      (flatten site.scope right).members := by
    rw [flatten]
    rfl
  unfold ReadsFlat
  rw [hflat]
  let n := (flatten site.scope left).members.length
  refine ⟨fun types => (f (types.take n)).join (g (types.drop n)), ?_,
    fun types hlength => ?_⟩
  · rw [readExpr, hf, hg]
    exact mapM_both _ _ _ f g Reading.join
  · rw [List.length_append] at hlength
    have hleft : (types.take n).length =
        (flatten site.scope left).members.length := by
      rw [List.length_take]
      omega
    have hright : (types.drop n).length =
        (flatten site.scope right).members.length := by
      rw [List.length_drop]
      omega
    have hstands := (hfs _ hleft).join pos (hgs _ hright)
    rwa [List.take_append_drop] at hstands

theorem readAllFlat_nil : ReadAllFlat names site [] := by
  refine ⟨fun _ => [], ?_, fun types hlength => ?_⟩
  · rw [flattenAll]
    rfl
  · rw [flattenAll] at hlength
    rw [List.length_eq_zero_iff.mp hlength]
    exact .nil

theorem ReadsFlat.cons {e : Expr} {es : List Expr} (h : ReadsFlat names site e)
    (hs : ReadAllFlat names site es) : ReadAllFlat names site (e :: es) := by
  obtain ⟨f, hf, hfs⟩ := h
  obtain ⟨g, hg, hgs⟩ := hs
  have hflat : (flattenAll site.scope (e :: es)).members =
      (flatten site.scope e).members ++ (flattenAll site.scope es).members := by
    rw [flattenAll]
    rfl
  unfold ReadAllFlat
  rw [hflat]
  let n := (flatten site.scope e).members.length
  refine ⟨fun types => f (types.take n) :: g (types.drop n), ?_,
    fun types hlength => ?_⟩
  · rw [List.mapM_cons, hf, hg]
    exact mapM_both _ _ _ f g List.cons
  · rw [List.length_append] at hlength
    have hfirst : (types.take n).length =
        (flatten site.scope e).members.length := by
      rw [List.length_take]
      omega
    have hrest : (types.drop n).length =
        (flattenAll site.scope es).members.length := by
      rw [List.length_drop]
      omega
    have hstands := (hfs _ hfirst).cons (hgs _ hrest)
    rwa [List.take_append_drop] at hstands

/-- A name of the language with arguments. -/
theorem readExpr_head {value index : Expr} {name : String}
    (head : isHead site.scope value name = true) (pos : Position) :
    ∃ dotted, readExpr names site (.subscript pos value index) =
      .type <$> generic site pos.row name dotted (arguments index)
        ((arguments index).map (readExpr names site)) := by
  unfold isHead at head
  cases hd : value.dotted? with
  | none => rw [hd] at head; cases head
  | some dotted =>
      rw [hd] at head
      have hb : builtinName site.scope dotted = some name :=
        of_decide_eq_true head
      refine ⟨dotted, ?_⟩
      rw [readExpr_subscript]
      unfold applied
      rw [hd]
      dsimp only
      rw [hb]
      rfl

theorem ReadsFlat.optional {value index : Expr} (pos : Position)
    (head : isHead site.scope value "Optional" = true)
    (noTuple : arguments index = [index])
    (hflat : flatten site.scope (.subscript pos value index) =
      ⟨(flatten site.scope index).members, true⟩)
    (h : ReadsFlat names site index) :
    ReadsFlat names site (.subscript pos value index) := by
  obtain ⟨f, hf, hfs⟩ := h
  refine ⟨fun types => .type (.pointer (f types).toType), ?_,
    fun types hlength => ?_⟩
  · obtain ⟨dotted, hread⟩ := readExpr_head head pos
    rw [hread, hflat, noTuple]
    simp [generic, argumentType, hf]
  · rw [hflat] at hlength
    exact (hfs types hlength).optional pos head hflat

theorem ReadAllFlat.union {value index : Expr} (pos : Position)
    (head : isHead site.scope value "Union" = true)
    (some : arguments index ≠ [])
    (hflat : flatten site.scope (.subscript pos value index) =
      flattenAll site.scope (arguments index))
    (h : ReadAllFlat names site (arguments index)) :
    ReadsFlat names site (.subscript pos value index) := by
  obtain ⟨f, hf, hfs⟩ := h
  refine ⟨fun types => .type (unionType (f types)), ?_, fun types hlength => ?_⟩
  · obtain ⟨dotted, hread⟩ := readExpr_head head pos
    rw [hread, hflat]
    simp [generic, List.mapM_map, hf]
  · rw [hflat] at hlength
    exact (hfs types hlength).union pos head some hflat

/-- One case for each way of taking an annotation apart. -/
theorem reads_flat (names : Names) (site : Site) :
    (∀ e, ReadsFlat names site e) ∧ ∀ es, ReadAllFlat names site es := by
  -- the cases are those of flattening, which look at less than those of
  -- reading: what is no union is one member, whatever it is
  apply flatten.mutual_induct site.scope
  case case1 => exact fun pos => readsFlat_nothing rfl
  case case2 => exact fun pos marked => readsFlat_nothing rfl
  case case3 =>
      intro pos text marked htext
      refine readsFlat_one (decide_eq_false htext)
        (fun _ _ _ h => by cases h) ?_
      rw [flatten, if_neg htext]
  case case4 => exact fun pos left right hl hr => hl.join pos hr
  case case5 =>
      intro pos value at_ elts hguard helts
      have hhead := hguard
      rw [Bool.and_eq_true, Bool.not_eq_true',
        List.isEmpty_eq_false_iff] at hhead
      exact ReadAllFlat.union pos hhead.1 hhead.2
        (flatten_union hhead.1 hhead.2) helts
  case case6 =>
      intro pos value at_ elts hguard
      refine readsFlat_one rfl (fun _ _ _ h => by cases h) ?_
      rw [flatten, if_neg hguard]
  case case7 =>
      intro pos value index hindex hhead h
      exact h.optional pos hhead (arguments_single hindex)
        (flatten_optional hhead hindex)
  case case8 =>
      intro pos value index hindex hno hhead h
      have hall : ReadAllFlat names site (arguments index) := by
        rw [arguments_single hindex]
        exact h.cons readAllFlat_nil
      refine hall.union pos hhead ?_ ?_
      · rw [arguments_single hindex]
        exact List.cons_ne_nil _ _
      · rw [flatten, if_neg hno, if_pos hhead, arguments_single hindex,
          flattenAll_singleton]
        exact hindex
  case case9 =>
      intro pos value index hindex hno hno'
      refine readsFlat_one rfl (fun _ _ _ h => by cases h) ?_
      rw [flatten, if_neg hno, if_neg hno']
      exact hindex
  case case10 =>
      intro e hnone htext hbinary htuple hsubscript
      refine readsFlat_one ?_ hbinary ?_
      · unfold readsAsNothing
        split
        · exact absurd rfl (hnone _)
        · exact absurd rfl (htext _ _ _)
        · rfl
      · rw [flatten]
        · exact hnone
        · exact htext
        · exact hbinary
        · exact htuple
        · exact hsubscript
  case case11 => exact readAllFlat_nil
  case case12 => exact fun e es he hes => he.cons hes

/-- The type that members of these types have as a union. -/
def unionOf (optional : Bool) (types : List TypeRef) : TypeRef :=
  Members.type ⟨types, optional⟩

/-- The members are read one after the other, and the union is what their
types make it. -/
theorem typeOf_flat {e : Expr} (h : Outermost site.scope e) :
    typeOf names site e =
      unionOf (flatten site.scope e).optional <$>
        (flatten site.scope e).members.mapM (typeOf names site) := by
  obtain ⟨f, hf, hfs⟩ := (reads_flat names site).1 e
  rw [typeOf, hf, Functor.map_map, map_eq_pure_bind, map_eq_pure_bind]
  refine Plan.mapM_congr fun types htypes => ?_
  rw [(hfs types htypes).whole h]
  rfl

end Reading

/-! ## Spellings of an optional type -/

/-- The ways to write that something is of a type or nothing. -/
inductive Spells (scope : Scope) (e : Expr) : Expr → Prop where
  | optional {pos : Position} {value : Expr}
      (head : isHead scope value "Optional" = true) :
      Spells scope e (.subscript pos value e)
  | unionFirst {pos at_ : Position} {value none : Expr}
      (head : isHead scope value "Union" = true)
      (isNone : readsAsNothing none = true) :
      Spells scope e (.subscript pos value (.tuple at_ [e, none]))
  | unionLast {pos at_ : Position} {value none : Expr}
      (head : isHead scope value "Union" = true)
      (isNone : readsAsNothing none = true) :
      Spells scope e (.subscript pos value (.tuple at_ [none, e]))
  | barFirst {pos : Position} {none : Expr}
      (isNone : readsAsNothing none = true) :
      Spells scope e (.binary pos e .bitOr none)
  | barLast {pos : Position} {none : Expr}
      (isNone : readsAsNothing none = true) :
      Spells scope e (.binary pos none .bitOr e)

section Spellings

variable {names : Names} {site : Site} {e none : Expr}

theorem unionType_nothing (r : Reading) :
    unionType [r, .nothing] = .pointer r.toType ∧
    unionType [.nothing, r] = .pointer r.toType := by
  cases r with
  | nothing => exact ⟨rfl, rfl⟩
  | type t => exact ⟨rfl, rfl⟩
  | union m => exact ⟨rfl, rfl⟩

/-- A bar with nothing at one side is a pointer to what stands at
the other side. -/
theorem typeOf_bar
    (hnever : ∀ pos left right, e = .binary pos left .bitOr right →
      (flatten site.scope e).optional = false)
    (isNone : readsAsNothing none = true) (pos : Position) :
    typeOf names site (.binary pos e .bitOr none) =
        .pointer <$> typeOf names site e ∧
      typeOf names site (.binary pos none .bitOr e) =
        .pointer <$> typeOf names site e := by
  have hnone : readExpr names site none = pure .nothing :=
    readExpr_nothing isNone
  -- three cases: nothing on both sides, a side that flattens to no optional
  -- type, and one that does but, by the hypothesis, is not written with a bar
  by_cases hnothing : readsAsNothing e = true
  · have he : readExpr names site e = pure .nothing := readExpr_nothing hnothing
    unfold typeOf
    rw [readExpr, readExpr, hnone, he]
    exact ⟨rfl, rfl⟩
  by_cases hopt : (flatten site.scope e).optional = false
  · have hside : Side site.scope e := .part (.inr hopt)
    have hnoneSide : Side site.scope none := .part (.inl isNone)
    have hfirst : flatten site.scope (.binary pos e .bitOr none) =
        ⟨(flatten site.scope e).members, true⟩ := by
      rw [flatten, flatten_nothing isNone]
      simp [Flat.append, Flat.nothing]
    have hlast : flatten site.scope (.binary pos none .bitOr e) =
        ⟨(flatten site.scope e).members, true⟩ := by
      rw [flatten, flatten_nothing isNone]
      simp [Flat.append, Flat.nothing]
    rw [typeOf_flat (.join hside hnoneSide),
      typeOf_flat (.join hnoneSide hside), typeOf_flat (.never hopt), hfirst,
      hlast, hopt, Functor.map_map]
    exact ⟨rfl, rfl⟩
  · have he : readExpr names site e = .type <$> typeOf names site e :=
      readExpr_typed (Bool.eq_false_iff.mpr hnothing) fun pos left right h =>
        hopt (hnever pos left right h)
    constructor
    · rw [typeOf, readExpr, hnone, he]
      simp [Reading.join, Reading.toType]
      rfl
    · rw [typeOf, readExpr, hnone, he]
      simp [Reading.join, Reading.toType]
      rfl

theorem Spells.typeOf_eq {spelled : Expr} (h : Spells site.scope e spelled)
    (noTuple : arguments e = [e])
    (hnever : ∀ pos left right, e = .binary pos left .bitOr right →
      (flatten site.scope e).optional = false) :
    typeOf names site spelled = .pointer <$> typeOf names site e := by
  have hunion : ∀ {pos at_ value a b}, isHead site.scope value "Union" = true →
      typeOf names site (.subscript pos value (.tuple at_ [a, b])) = (do
        let x ← readExpr names site a
        let y ← readExpr names site b
        return unionType [x, y]) := by
    intro pos at_ value a b head
    obtain ⟨dotted, hread⟩ :=
      @readExpr_head names site value (.tuple at_ [a, b]) _ head pos
    rw [typeOf, hread]
    simp [generic, arguments, Reading.toType]
  cases h with
  | optional head =>
      obtain ⟨dotted, hread⟩ := @readExpr_head names site _ e _ head ‹_›
      rw [typeOf, hread, noTuple]
      simp [generic, argumentType, typeOf, Reading.toType]
  | unionFirst head isNone =>
      rw [hunion head, readExpr_nothing isNone, typeOf]
      simp [unionType_nothing]
  | unionLast head isNone =>
      rw [hunion head, readExpr_nothing isNone, typeOf]
      simp [unionType_nothing]
  | barFirst isNone => exact (typeOf_bar hnever isNone _).1
  | barLast isNone => exact (typeOf_bar hnever isNone _).2

end Spellings

/-! ## What a union stands for -/

/-- The type that all of these are, or any type if there is no such. -/
structure CommonType (types : List TypeRef) (common : TypeRef) : Prop where
  all : ∀ t, types ≠ [] → (∀ x ∈ types, x = t) → common = t
  none : types = [] ∨ (¬∃ t, ∀ x ∈ types, x = t) → common = .any

theorem commonType_single (types : List TypeRef) :
    CommonType types (Members.single types) := by
  refine ⟨fun t hne hall => Members.single_of_all hne hall, ?_⟩
  rintro (rfl | h)
  · rfl
  · exact Members.single_of_not h

theorem unionOf_eq (optional : Bool) (types : List TypeRef) :
    unionOf optional types =
    if optional then .pointer (Members.single types)
      else Members.single types := rfl

section Typing

variable {t : Symbols} {site : Site}

theorem annotationWith_flat {e : Expr} (h : Outermost site.scope e)
    (expand : Expansion) :
    annotationWith t expand site e = unionOf (flatten site.scope e).optional <$>
      (flatten site.scope e).members.mapM (annotationWith t expand site) :=
  typeOf_flat h

/-- Members that are read while no alias is being expanded have their
types by the text. -/
theorem mem_types_iff (hk : t.Keyed) (hsite : t.Has site.scope) {es : List Expr}
    {s after : Store} {types : List TypeRef} (hs : WellFormed t s)
    (hidle : s.aliases = [])
    (h : es.mapM (t.annotation site) s = (.ok types, after)) (x : TypeRef) :
    x ∈ types ↔ ∃ m ∈ es, t.typing site.scope m = some x := by
  induction es generalizing s types with
  | nil =>
      cases h
      simp
  | cons e es ih =>
      rw [List.mapM_cons] at h
      obtain ⟨type, s₁, he, h⟩ := ok_of_bind h
      obtain ⟨more, s₂, hes, h⟩ := ok_of_bind h
      cases h
      have htype : t.typing site.scope e = some type :=
        typingUnder_of_answer hk (Nat.le_refl _) hs hsite
          (fun q _ => by rw [hidle]) he
      obtain ⟨⟨hs₁, hidle₁⟩, -⟩ := annotation_echoes hk (steadfast_wellFormed t)
        (levels_echo hk (Nat.le_refl t.levels)) site site hsite rfl e s s hs
        (fun _ _ => Iff.rfl) type s₁ he
      rw [List.mem_cons, ih hs₁ (hidle₁.trans hidle) hes]
      constructor
      · rintro (rfl | ⟨m, hm, hx⟩)
        · exact ⟨e, List.mem_cons_self, htype⟩
        · exact ⟨m, List.mem_cons_of_mem e hm, hx⟩
      · rintro ⟨m, hm, hx⟩
        rcases List.mem_cons.mp hm with rfl | hm
        · rw [htype] at hx
          exact .inl (Option.some.inj hx).symm
        · exact .inr ⟨m, hm, hx⟩

end Typing

/-- A union is a pointer if nothing is among its members, and what it stands
for is the one type of the others, as long as nothing is written in the
outermost union only. Then neither the order nor the grouping of its members
matters, nor how often one of them is written. All spellings of an optional
type agree, but that a bar takes the type apart if that is a union by bars,
with nothing among its sides. -/
theorem unions_agree (p : Program) {site : Site}
    (hsite : (Symbols.ofProgram p).Has site.scope) :
    (∀ e, Outermost site.scope e → ∀ expand s types after,
      (flatten site.scope e).members.mapM
        (annotationWith (Symbols.ofProgram p) expand site) s =
        (.ok types, after) →
      ∃ common, CommonType types common ∧
        annotationWith (Symbols.ofProgram p) expand site e s =
          (.ok (if (flatten site.scope e).optional then .pointer common
            else common), after)) ∧
    (∀ e e', Outermost site.scope e → Outermost site.scope e' →
      (flatten site.scope e).optional = (flatten site.scope e').optional →
      (∀ x, (∃ m ∈ (flatten site.scope e).members,
          (Symbols.ofProgram p).typing site.scope m = some x) ↔
        ∃ m ∈ (flatten site.scope e').members,
          (Symbols.ofProgram p).typing site.scope m = some x) →
      ∀ s s', Reached p s → Reached p s' → s.aliases = [] → s'.aliases = [] →
        ∀ type type' after after',
          Symbols.annotation (Symbols.ofProgram p) site e s =
          (.ok type, after) → Symbols.annotation (Symbols.ofProgram p) site e'
            s' = (.ok type', after') → type = type') ∧
    ∀ e spelled, arguments e = [e] →
      (∀ pos left right, e = .binary pos left .bitOr right →
        (flatten site.scope e).optional = false) →
      Spells site.scope e spelled → ∀ expand,
        annotationWith (Symbols.ofProgram p) expand site spelled =
          .pointer <$> annotationWith (Symbols.ofProgram p) expand site e := by
  refine ⟨fun e he expand s types after hr => ?_,
    fun e e' he he' hopt hsame s s' hs hs' hidle hidle'
    type type' after after' h h' => ?_, fun e spelled noTuple hnever h expand =>
      h.typeOf_eq noTuple hnever⟩
  · refine ⟨_, commonType_single types, ?_⟩
    rw [annotationWith_flat he, map_eq_pure_bind, run_bind, hr, ← unionOf_eq]
    rfl
  · have hk := Symbols.keyed_ofProgram p
    have hanswer : ∀ {e : Expr} {s after : Store} {type : TypeRef},
        Outermost site.scope e → Reached p s → s.aliases = [] →
        Symbols.annotation (Symbols.ofProgram p) site e s = (.ok type, after) →
        ∃ types, type = unionOf (flatten site.scope e).optional types ∧
          ∀ x, x ∈ types ↔ ∃ m ∈ (flatten site.scope e).members,
            (Symbols.ofProgram p).typing site.scope m = some x := by
      intro e s after type he hs hidle h
      rw [Symbols.annotation, annotationWith_flat he, map_eq_pure_bind] at h
      obtain ⟨types, s₁, hmembers, h⟩ := ok_of_bind h
      cases h
      exact ⟨types, rfl, mem_types_iff hk hsite (sane_of_reached hs).wellFormed
        hidle hmembers⟩
    obtain ⟨types, rfl, htypes⟩ := hanswer he hs hidle h
    obtain ⟨types', rfl, htypes'⟩ := hanswer he' hs' hidle' h'
    -- both answers are made from the types of the members alone, and of these
    -- only which there are counts, not how often or in which order
    have hsingle : Members.single types = Members.single types' :=
      Members.single_congr fun x =>
        (htypes x).trans ((hsame x).trans (htypes' x).symm)
    rw [hopt, unionOf_eq, unionOf_eq, hsingle]

namespace Sample

def unionSource : Source :=
  source "main" "main"
    [.importFrom (some "typing") 0 [⟨"Optional", none⟩, ⟨"Union", none⟩]]

def unionProgram : Program := program [unionSource]

def unionSite : Site := ⟨.ofSource unionSource, "main", "Holder.item"⟩

/-- What an annotation stands for in the module. -/
def unionReading (e : Expr) : Option TypeRef :=
  (Symbols.annotation (Symbols.ofProgram unionProgram) unionSite e
    freshStore).1.toOption

def nothing : Expr := .constant start .none

def optional (e : Expr) : Expr := .subscript start (name "Optional") e

def union (es : List Expr) : Expr :=
  .subscript start (name "Union") (.tuple start es)

def bar (left right : Expr) : Expr := .binary start left .bitOr right

theorem has_unionSource :
    (Symbols.ofProgram unionProgram).Has unionSite.scope :=
  has_source unionSource

theorem head_optional :
    isHead unionSite.scope (name "Optional") "Optional" = true := by
  decide +kernel

theorem head_union : isHead unionSite.scope (name "Union") "Union" = true := by
  decide +kernel

theorem flatten_name (id : String) :
    flatten unionSite.scope (name id) = .one (name id) := by
  unfold name
  rw [flatten] <;> intros <;> contradiction

theorem flatten_quoted : flatten unionSite.scope (quoted "int") =
    .one (quoted "int") := by
  unfold quoted
  rw [flatten, if_neg (by decide)]

theorem flatten_none : flatten unionSite.scope nothing = .nothing :=
  flatten_nothing rfl

theorem whole_nothing : Whole unionSite.scope nothing := .inl rfl

theorem whole_int : Whole unionSite.scope (name "int") :=
  .inr (by rw [flatten_name]; rfl)

theorem flatten_optionalInt :
    flatten unionSite.scope (optional (name "int")) = ⟨[name "int"], true⟩ := by
  unfold optional
  rw [flatten_optional head_optional (fun _ _ h => by cases h), flatten_name]
  rfl

theorem flatten_manyInts :
    flatten unionSite.scope (union [nothing, name "int", quoted "int"]) =
      ⟨[name "int", quoted "int"], true⟩ := by
  unfold union
  rw [flatten_union head_union (List.cons_ne_nil _ _)]
  rw [flattenAll, flattenAll, flattenAll, flattenAll, flatten_name,
    flatten_quoted, flatten_none]
  rfl

set_option maxRecDepth 10000 in
/-- Optional integers in three spellings. -/
theorem optional_ints_agree :
    (∃ common after,
      CommonType [.primitive .integer, .primitive .integer] common ∧
      Symbols.annotation (Symbols.ofProgram unionProgram) unionSite
        (union [nothing, name "int", quoted "int"]) freshStore =
        (.ok (.pointer common), after)) ∧
    (∃ type after after',
      Symbols.annotation (Symbols.ofProgram unionProgram) unionSite
        (optional (name "int")) freshStore = (.ok type, after) ∧
      Symbols.annotation (Symbols.ofProgram unionProgram) unionSite
        (union [nothing, name "int", quoted "int"]) freshStore =
        (.ok type, after')) ∧
    Symbols.annotation (Symbols.ofProgram unionProgram) unionSite
      (bar nothing (name "int")) = .pointer <$> Symbols.annotation
        (Symbols.ofProgram unionProgram) unionSite (name "int") := by
  obtain ⟨hcommon, hagree, hspelled⟩ :=
    @unions_agree unionProgram unionSite has_unionSource
  have hmany :
      Outermost unionSite.scope
        (union [nothing, name "int", quoted "int"]) := by
    refine .union head_union (List.cons_ne_nil _ _) fun x hx => ?_
    simp only [arguments, List.mem_cons, List.not_mem_nil, or_false] at hx
    rcases hx with rfl | rfl | rfl
    · exact whole_nothing
    · exact whole_int
    · exact .inr (by rw [flatten_quoted]; rfl)
  have hone : Outermost unionSite.scope (optional (name "int")) :=
    .optional head_optional rfl whole_int
  have hints : (([name "int", quoted "int"].mapM
      (Symbols.annotation (Symbols.ofProgram unionProgram) unionSite))
      freshStore).1.toOption =
        some [.primitive .integer, .primitive .integer] := by
    decide +kernel
  have hread : unionReading (optional (name "int")) =
      some (.pointer (.primitive .integer)) := by
    decide +kernel
  have hname :
      (Symbols.ofProgram unionProgram).typing unionSite.scope (name "int") =
      some (.primitive .integer) := by
    decide +kernel
  have hquote : (Symbols.ofProgram unionProgram).typing unionSite.scope
      (quoted "int") = some (.primitive .integer) := by
    decide +kernel
  obtain ⟨common, htypes, hanswer⟩ :=
    hcommon _ hmany (Symbols.ofProgram unionProgram).expansion
    freshStore _ _ (by rw [flatten_manyInts]; exact run_of_toOption hints)
  rw [flatten_manyInts] at hanswer
  refine ⟨⟨common, _, htypes, hanswer⟩, ?_,
    hspelled _ _ rfl ?_ (.barLast rfl) _⟩
  · have hfresh : Reached unionProgram freshStore := .start []
    have htype :=
      hagree _ _ hone hmany (by rw [flatten_optionalInt, flatten_manyInts])
      (fun x => by simp [flatten_optionalInt, flatten_manyInts, hname, hquote])
      _ _ hfresh hfresh rfl
      rfl _ _ _ _ (run_of_toOption hread) hanswer
    exact ⟨_, _, _, run_of_toOption hread, htype ▸ hanswer⟩
  · intro pos left right h
    cases h

set_option maxRecDepth 10000 in
/-- The bar that is taken apart, and two spellings that are not: one stands for
a pointer, the others for a pointer to a pointer. -/
theorem spellings_disagree :
    let inner := bar (name "int") nothing
    (∀ e ∈ [bar inner nothing, optional inner, union [inner, nothing]],
      flatten unionSite.scope e = ⟨[name "int"], true⟩) ∧
    unionReading (name "int") = some (.primitive .integer) ∧
    unionReading (bar inner nothing) = some (.pointer (.primitive .integer)) ∧
    unionReading (optional inner) =
    some (.pointer (.pointer (.primitive .integer))) ∧
    unionReading (union [inner, nothing]) =
    some (.pointer (.pointer (.primitive .integer))) := by
  have hinner : flatten unionSite.scope (bar (name "int") nothing) =
      ⟨[name "int"], true⟩ := by
    rw [bar, flatten, flatten_name, flatten_none]
    rfl
  refine ⟨?_, ?_, ?_, ?_, ?_⟩
  · intro e he
    simp only [List.mem_cons, List.not_mem_nil, or_false] at he
    rcases he with rfl | rfl | rfl
    · rw [bar, flatten, hinner, flatten_none]
      rfl
    · rw [optional, flatten_optional head_optional (fun _ _ h => by cases h),
        hinner]
    · rw [union, flatten_union head_union (List.cons_ne_nil _ _),
        flattenAll, flattenAll, flattenAll, hinner, flatten_none]
      rfl
  all_goals decide +kernel

end Sample

end BridgeBindings
