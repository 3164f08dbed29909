import BridgeBindings.Proofs.Completion
import BridgeBindings.Proofs.Refusals
import BridgeBindings.Proofs.Shallow
import BridgeBindings.Proofs.Watching

/-!
# Enums are no structs

An annotation that names an enum is answered with what the members carry, before
any class is expanded. So an enum could only be resolved as a base or as a
record. Records are no enums by definition, and a base of a class that is no
enum is none either, as long as the hierarchies are shallow enough for it to be
seen: the watch of a whole analysis that looks out for enums is never heard.

What an annotation mentions further inside is followed the same way. Every
struct in the type that it comes to is that of a class to which it leads and
which is no enum.
-/

namespace BridgeBindings

open Syntax Analyze

namespace Symbols

/-- All bases are dotted names, with nothing in brackets behind them. -/
def PlainBases (t : Symbols) : Prop :=
  ∀ c, t.Declares c → ∀ e ∈ c.decl.bases, e.dotted? ≠ none

theorem PlainBases.enums {t : Symbols} (h : t.PlainBases) : t.PlainEnums :=
  fun c hc _ _ _ he => absurd rfl (h c hc _ he)

/-! ## Annotations that stand for a class -/

/-- An annotation that stands for a class: its name, also with arguments
behind it, or a text in which one of these is quoted. What a typing module
offers is a name of the language, also where the program has a module of that
name (`own`). -/
inductive Denotes (t : Symbols) (scope : Scope) (c : ProgramClass) :
    Expr → Prop where
  | name {e : Expr} {dotted : String} (spelled : e.dotted? = some dotted)
      (own : builtinName scope dotted = none)
      (stands : t.lookup scope dotted = some (.cls c)) : Denotes t scope c e
  | applied {pos : Position} {value index : Expr} {dotted : String}
      (spelled : value.dotted? = some dotted)
      (own : builtinName scope dotted = none)
      (stands : t.lookup scope dotted = some (.cls c)) :
      Denotes t scope c (.subscript pos value index)
  | quoted {pos : Position} {text : String} {marked : Bool} {e : Expr}
      (other : text ≠ "None") (parsed : readExpression (Text.trim text) = .ok e)
      (inside : Denotes t scope c e) :
      Denotes t scope c (.constant pos (.text text marked))

end Symbols

section Denoting

variable {t : Symbols} {c : ProgramClass} {type : TypeRef} {site : Site}

theorem readExpr_dotted (names : Names) {e : Expr} {dotted : String}
    (he : e.dotted? = some dotted)
    (hown : builtinName site.scope dotted = none) :
    readExpr names site e = .type <$> names.named e.row dotted := by
  rw [readExpr_asName (readsAsName_of_dotted he)]
  unfold plain
  rw [he]
  dsimp only
  rw [hown]

theorem readExpr_applied (names : Names) {pos : Position} {value index : Expr}
    {dotted : String} (hvalue : value.dotted? = some dotted)
    (hown : builtinName site.scope dotted = none) :
    readExpr names site (.subscript pos value index) =
      .type <$> names.named (Expr.subscript pos value index).row dotted := by
  rw [readExpr_subscript]
  unfold applied
  rw [hvalue]
  dsimp only
  rw [hown]

theorem named_type (x : Expansion) {dotted : String}
    (hl : t.lookup site.scope dotted = some (.cls c))
    (henum : t.enumType c = some type) (row : Nat) :
    namedType t x site row dotted = pure type := by
  unfold namedType
  rw [hl]
  dsimp only
  rw [henum]

variable (x : Expansion) (henum : t.enumType c = some type)

include henum

/-- Reading such an expression, if the texts that it quotes are read well. -/
theorem readExpr_denotes {forward : Nat → String → Resolve TypeRef} {e : Expr}
    (h : t.Denotes site.scope c e)
    (hforward : ∀ text ∈ e.quoted,
      ∀ inner, readExpression (Text.trim text) = .ok inner →
      t.Denotes site.scope c inner → ∀ row, forward row text = pure type) :
    readExpr ⟨namedType t x site, forward⟩ site e = pure (.type type) := by
  cases h with
  | name spelled own stands =>
      rw [readExpr_dotted _ spelled own]
      dsimp only
      rw [named_type x stands henum, map_pure]
  | applied spelled own stands =>
      rw [readExpr_applied _ spelled own]
      dsimp only
      rw [named_type x stands henum, map_pure]
  | quoted other parsed inside =>
      rw [readExpr, if_neg other]
      dsimp only
      rw [hforward _ (List.mem_singleton_self _) _ parsed inside, map_pure]

/-- By induction on the levels: each quoted text is shorter than the
one around it. -/
theorem readText_denotes {levels row : Nat} {text : String} {e : Expr}
    (hlevels : text.length < levels)
    (he : readExpression (Text.trim text) = .ok e)
    (h : t.Denotes site.scope c e) :
    readText (namedType t x site) site levels row text = pure type := by
  induction levels generalizing row text e with
  | zero => omega
  | succ levels ih =>
      rw [readText.eq_def]
      dsimp only
      rw [he]
      dsimp only
      rw [readExpr_denotes x henum h, map_pure]
      · rfl
      · intro quote hquote inner hinner hinside row
        have hshorter := quoted_shorter he hquote
        have htrim := trim_length text
        exact ih (by omega) hinner hinside

theorem annotation_denotes {e : Expr} (h : t.Denotes site.scope c e) :
    annotationWith t x site e = pure type := by
  unfold annotationWith annotationType
  rw [readExpr_denotes x henum h, map_pure]
  · rfl
  · exact fun text _ inner hinner hinside row =>
      readText_denotes x henum (Nat.lt_succ_self _) hinner hinside

end Denoting

/-! ## The structs that a type mentions -/

section Touching

variable {t : Symbols} {expand : Expansion}

/-- An expansion of aliases that comes to no structs but those that their
values lead to. -/
def Expansion.Touching (expand : Expansion) (t : Symbols) : Prop :=
  ∀ site scope name value, t.DeclaresAlias scope name value →
    Keeps (sound t) AnyStop Always (expand.aliased site scope name value)
      fun type s =>
        Refers (fun k _ => isCall value = false ∧
          Touches t [] scope value (.struct k))
        type.structRefs s

variable (hk : t.Keyed) (hsound : expand.Sound t) (h : expand.Touching t)

include hk hsound h

theorem namedType_touches {site : Site} (hs : t.Has site.scope) (row : Nat)
    (dotted : String) :
    Keeps (sound t) AnyStop Always (namedType t expand site row dotted)
      fun type s =>
        Refers (fun k _ => NameTouches t [] site.scope dotted (.struct k))
          type.structRefs s := by
  unfold namedType
  split
  · exact Keeps.throw trivial
  · exact (addUnresolved_sound _ _).bind fun _ => Keeps.pure fun s _ _ =>
      refers_nil rfl s
  · next scope name value hl =>
      refine (h site scope name value (Symbols.owns_lookup hk hs hl)).post
        fun type s _ hpost k hkey => ?_
      obtain ⟨hcall, htouches⟩ := hpost k hkey
      exact .aliased hl hcall List.not_mem_nil htouches
  · next c hl =>
      split
      · next type htype =>
          exact Keeps.pure fun s _ _ =>
            refers_nil (structRefs_enumTypeWithin htype) s
      · next hnone =>
          refine (structRef_key hsound site.owner
            (Symbols.owns_lookup hk hs hl)).post fun type s _ hpost k hkey => ?_
          rw [hpost.1] at hkey
          cases List.mem_singleton.mp hkey
          exact .cls hl hnone
  · exact Keeps.throw trivial

theorem annotation_touches (site : Site) (hs : t.Has site.scope) (e : Expr) :
    Keeps (sound t) AnyStop Always (annotationWith t expand site e)
      fun type s => Refers (fun k _ => Touches t [] site.scope e (.struct k))
        type.structRefs s := by
  refine (annotation_keeps
    (R := fun k _ => Touches t [] site.scope e (.struct k))
    (V := fun _ _ => True) (fun _ _ _ _ h => h) (fun _ _ _ _ h => h)
    (fun _ _ _ => trivial) fun dotted hm row => ?_).post fun _ _ _ h => h.2.1
  exact (namedType_touches hk hsound h hs row dotted).post fun _ _ _ hpost =>
    ⟨trivial, fun k hkey => (hpost k hkey).touches hm, trivial⟩

theorem expandAlias_touches (site : Site) {scope : Scope}
    {name : String} {value : Expr} (ha : t.DeclaresAlias scope name value) :
    Keeps (sound t) AnyStop Always (expandAlias t expand site scope name value)
      fun type s =>
        Refers (fun k _ => isCall value = false ∧
          Touches t [] scope value (.struct k))
        type.structRefs s := by
  refine Keeps.read.bind fun seen =>
    .ite (fun _ => Keeps.pure fun s _ _ => refers_nil rfl s) fun hopen => ?_
  have hcall : isCall value = false := by
    rw [Bool.or_eq_true, not_or] at hopen
    exact Bool.eq_false_iff.mpr hopen.1
  have hinner := annotation_touches hk hsound h
    { site with scope := scope } ha.inTree value
  exact ((withAlias_sound _ (fun _ _ _ _ h => h) hinner).pre fun _ _ _ =>
    trivial).post fun type s _ hpost k hkey => ⟨hcall, hpost k hkey⟩

end Touching

theorem levels_touching {t : Symbols} (hk : t.Keyed) (n : Nat) :
    Expansion.Touching ⟨classAt t n, aliasAt t n⟩ t := by
  induction n with
  | zero => exact fun _ _ _ _ _ => Keeps.throw trivial
  | succ n ih =>
      rw [levels_succ]
      intro site scope name value ha
      exact expandAlias_touches hk (levels_sound hk n) ih site ha

theorem Touches.noEnum {t : Symbols} {avoid : List String}
    {scope : Scope} {e : Expr} {k : StructKey} (hk : t.Keyed) (hs : t.Has scope)
    (h : Touches t avoid scope e (.struct k)) :
    ∃ c, t.Declares c ∧ t.enumType c = none ∧ c.key = k := by
  generalize hx : Needed.struct k = x at h
  induction h with
  | flawed => cases hx
  | cls _ stands noEnum =>
      cases hx
      exact ⟨_, Symbols.owns_lookup hk hs stands, noEnum, rfl⟩
  | aliased _ stands _ _ _ ih =>
      have ha : t.DeclaresAlias _ _ _ := Symbols.owns_lookup hk hs stands
      exact ih ha.inTree hx

/-! ## The analysis -/

/-- In a program with shallow hierarchies and plain bases no enum becomes a
struct. None is registered as a record, and whatever a watch does about enums,
the analysis is the same, so none is ever resolved, also when something fails.
On any level of a resolution, an annotation that stands for an enum comes to a
primitive or to any type, and no other annotation comes to a type that mentions
the struct of one. -/
theorem enums_apart (p : Program) (hshallow : (Symbols.ofProgram p).Shallow)
    (hplain : (Symbols.ofProgram p).PlainBases) :
    (∀ c ∈ records (Symbols.ofProgram p),
      (Symbols.ofProgram p).enumType c = none) ∧
    (∀ watch : ProgramClass → Resolve Unit,
      (∀ c, (Symbols.ofProgram p).enumType c = none → watch c = pure ()) →
      ∀ config log,
        ((Symbols.ofProgram p).watched watch).program config p
            { Store.ofPackages p.packages.keys p.rootPackage with log := log } =
          Analyze.program config p
            { Store.ofPackages p.packages.keys p.rootPackage with
              log := log }) ∧
    (∀ c type, (Symbols.ofProgram p).enumType c = some type →
      (type = .any ∨ ∃ q, type = .primitive q) ∧
        ∀ x site e, (Symbols.ofProgram p).Denotes site.scope c e →
          annotationWith (Symbols.ofProgram p) x site e = pure type) ∧
    ∀ levels site e s type s', (Symbols.ofProgram p).Has site.scope →
      WellFormed (Symbols.ofProgram p) s →
      annotationWith (Symbols.ofProgram p)
        ⟨classAt (Symbols.ofProgram p) levels,
          aliasAt (Symbols.ofProgram p) levels⟩ site e s = (.ok type, s') →
      ∀ k ∈ type.structRefs, ∃ c, (Symbols.ofProgram p).Declares c ∧
        (Symbols.ofProgram p).enumType c = none ∧ c.key = k := by
  have hk := Symbols.keyed_ofProgram p
  refine ⟨fun c hc => enumType_of_isRecord (isRecord_of_mem hc),
    fun watch hsilent config log => ?_, fun c type henum =>
    ⟨enumTypeWithin_flat henum, fun x site e h => annotation_denotes x henum h⟩,
    fun levels site e s type s' hs hstore hr k hkey => ?_⟩
  -- only records are resolved, and from records no enum is come to
  · exact watched_program (Symbols.visits_records hshallow hplain.enums)
      (fun c => enumType_of_isRecord) (fun c => isRecord_of_mem) hsilent config
      ⟨coherent_ofPackages _ _ _ _ log, rfl⟩
  · obtain ⟨-, -, htouches⟩ := annotation_touches hk (levels_sound hk levels)
      (levels_touching hk levels) site hs e s hstore trivial
    rw [hr] at htouches
    exact (htouches k hkey).noEnum hk hs

namespace Sample

/-- An enum with an annotated name. -/
def colorCls : ClassDef :=
  cls "Color" ["Enum"] [field "label" (name "str"),
    .assign ⟨start, 1⟩ [name "RED"] (.constant start (.integer 1))]

/-- An enum by its base. -/
def shadeCls : ClassDef := cls "Shade" ["Color"] [field "depth" (name "int")]

def paintCls : ClassDef :=
  cls "Paint" [] [field "color" (name "Color"), field "shade" (quoted "Shade")]

def paletteSource : Source :=
  source "main" "main"
    [.importFrom (some "enum") 0 [⟨"Enum", none⟩], .cls colorCls, .cls shadeCls,
    .cls paintCls]

def paletteScope : Scope := .ofSource paletteSource

def palette : Program := program [paletteSource]

/-- A watch that stops at enums. -/
def stopAtEnums (t : Symbols) (c : ProgramClass) : Resolve Unit :=
  if (t.enumType c).isSome then throw .exhausted else pure ()

theorem palette_declares {c : ProgramClass}
    (h : (Symbols.ofProgram palette).Declares c) :
    c = ⟨paletteScope, colorCls⟩ ∨ c = ⟨paletteScope, shadeCls⟩ ∨
    c = ⟨paletteScope, paintCls⟩ := by
  obtain ⟨scope, decl⟩ := c
  obtain rfl : scope = paletteScope := has_source_only h.inTree
  have hdecl : decl ∈ [colorCls, shadeCls, paintCls] :=
    Table.mem_values_of_get? h.decl
  simp only [List.mem_cons, List.not_mem_nil, or_false] at hdecl
  rcases hdecl with rfl | rfl | rfl
  · exact .inl rfl
  · exact .inr (.inl rfl)
  · exact .inr (.inr rfl)

theorem palette_shallow : (Symbols.ofProgram palette).Shallow := by
  have hbases : ∀ c, (Symbols.ofProgram palette).bases ⟨paletteScope, c⟩ =
      Symbols.bases ⟨.ofList [("main", paletteScope)]⟩ ⟨paletteScope, c⟩ := by
    unfold palette
    rw [symbols_source]
    exact fun _ => rfl
  refine Symbols.shallow_of_rank (Symbols.keyed_ofProgram palette)
    (fun c => if c.name = "Shade" then 1 else 0)
    (fun c b hc hb => ?_) fun c _ => ?_
  · rcases palette_declares hc with rfl | rfl | rfl
    · have hnone : (Symbols.bases ⟨.ofList [("main", paletteScope)]⟩
          ⟨paletteScope, colorCls⟩).isEmpty = true := by decide +kernel
      rw [hbases, List.isEmpty_iff.mp hnone] at hb
      cases hb
    · rw [hbases] at hb
      rw [List.mem_singleton.mp hb]
      decide
    · cases hb
  · split <;> decide

theorem palette_plain : (Symbols.ofProgram palette).PlainBases := by
  intro c hc e he
  rcases palette_declares hc with rfl | rfl | rfl
  · rw [List.mem_singleton.mp he]
    nofun
  · rw [List.mem_singleton.mp he]
    nofun
  · cases he

/-- An enum by its base is an integer where it is quoted, and a watch that stops
at enums never does. -/
theorem palette_apart : (Symbols.ofProgram palette).Shallow ∧
    (Symbols.ofProgram palette).PlainBases ∧
    Symbols.annotation (Symbols.ofProgram palette)
      ⟨paletteScope, "main", "Paint.shade"⟩ (quoted "Shade") =
      pure (.primitive .integer) ∧
    ((Symbols.ofProgram palette).watched
      (stopAtEnums (Symbols.ofProgram palette))).program config
        palette (Store.ofPackages palette.packages.keys palette.rootPackage) =
      Analyze.program config palette
        (Store.ofPackages palette.packages.keys palette.rootPackage) := by
  obtain ⟨-, hwatched, hdenotes, -⟩ :=
    enums_apart palette palette_shallow palette_plain
  have henum : (Symbols.ofProgram palette).enumType ⟨paletteScope, shadeCls⟩ =
      some (.primitive .integer) := by decide +kernel
  have hshade : (Symbols.ofProgram palette).lookup paletteScope "Shade" =
      some (.cls ⟨paletteScope, shadeCls⟩) := by
    unfold palette
    rw [symbols_source]
    rfl
  have hread : (readExpression (Text.trim "Shade")).toOption.bind Expr.dotted? =
      some "Shade" := by
    decide +kernel
  obtain ⟨e, he, hspelled⟩ := Option.bind_eq_some_iff.mp hread
  refine ⟨palette_shallow, palette_plain, ?_, ?_⟩
  · exact (hdenotes _ _ henum).2 _ ⟨paletteScope, "main", "Paint.shade"⟩ _
      (.quoted (by decide) (ok_of_toOption he)
        (.name hspelled (by decide +kernel) hshade))
  · refine hwatched _ (fun c hc => ?_) config []
    unfold stopAtEnums
    rw [hc]
    rfl

/-- A watch that stops at records is heard. -/
example :
    ((((Symbols.ofProgram palette).watched fun _ => throw .exhausted).program
      config palette
    (Store.ofPackages palette.packages.keys
      palette.rootPackage)).1.toOption.isSome,
    (Analysis.answer config palette []).toOption.isSome) = (false, true) := by
  decide +kernel

end Sample

end BridgeBindings
