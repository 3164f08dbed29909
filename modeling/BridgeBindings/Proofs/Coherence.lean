import BridgeBindings.Proofs.Origins
import BridgeBindings.Proofs.Progress
import BridgeBindings.Proofs.Stages
import BridgeBindings.Proofs.Termination

/-!
# What holds of a store at every moment

A resolution that stops may have been inside any number of classes and aliases,
and each of them may have left a placeholder behind. What can still be said of
the store is kept by every step, whether it stops or not: the struct of a class
that is being resolved has no fields yet, a struct that has its fields keeps
them, and a placeholder belongs to a class that is being resolved or is one of
those that may be left waiting.

Which classes may be left is a parameter, since it depends on the program: a
class may always be left, but one that leads to no fault need not be. The same
walk tells where the fault comes from that stops a resolution.
-/

namespace BridgeBindings

open Syntax

/-! ## The invariant -/

/-- The struct of a key has got its fields. -/
def Store.IsResolved (s : Store) (k : StructKey) : Prop :=
  k.name ∈ (s.draft k.package).resolved

/-- A store in which only the structs of some classes (`left`) wait without
being resolved. Classes count by their modules, as another class may have
the same key. -/
structure Coherent (t : Symbols) (left : ProgramClass → Prop) (s : Store) :
    Prop where
  home : ∀ k st, s.get? k = some st →
    ∃ c, t.Declares c ∧ c.key = k ∧ st.module = c.module ∧
    st.name = c.name ∧ (s.IsResolved k ∨ k ∈ s.classes ∨ left c)
  waiting : ∀ k ∈ s.classes, ¬s.IsResolved k
  registered : ∀ k, s.IsResolved k → Registered k s

/-- What has its fields keeps them. -/
def Store.Freezes (a b : Store) : Prop :=
  ∀ k, a.IsResolved k → b.get? k = a.get? k

/-- A class whose struct has its fields or is about to get them, unless the name
belongs to another module. -/
def Settled (c : ProgramClass) (s : Store) : Prop :=
  ∃ st, s.get? c.key = some st ∧
    (st.module = c.module → s.IsResolved c.key ∨ c.key ∈ s.classes)

/-- The classes that a resolution may visit (`visited`) and those whose structs
it may leave waiting (`left`). -/
structure Symbols.Visits (t : Symbols) (visited left : ProgramClass → Prop) :
    Prop where
  bases : ∀ c, t.Declares c → visited c → ∀ b ∈ t.bases c, visited b
  named : ∀ c, t.Declares c → t.enumType c = none → visited c
  left : ∀ c, t.Declares c → visited c → left c ∨ ∀ stop, ¬Stops t (.cls c) stop

/-- Resolving keeps the store coherent and only adds to it. -/
def tending (t : Symbols) (left : ProgramClass → Prop) (n : Nat) :
    Contract where
  holds s := t.free s < n ∧ Coherent t left s
  leads a b := a.Grows b ∧ a.Freezes b
  refl s := ⟨.refl s, fun _ _ => rfl⟩
  trans h h' := ⟨h.1.trans h'.1, fun k hk =>
    (h'.2 k ((h.1.drafts k.package).resolved _ hk)).trans (h.2 k hk)⟩

/-- Any class may be left waiting. -/
abbrev AnyClass : ProgramClass → Prop := fun _ => True

theorem visits_any (t : Symbols) : t.Visits AnyClass AnyClass :=
  ⟨fun _ _ _ _ _ => trivial, fun _ _ _ => trivial, fun _ _ _ => .inl trivial⟩

/-! ## What lasts -/

/-- What a resolution leaves in place, for those who call it. -/
structure Store.Preserves (a b : Store) : Prop where
  classes : b.classes = a.classes
  aliases : b.aliases = a.aliases
  registered : ∀ k st, a.get? k = some st →
      ∃ st', b.get? k = some st' ∧ st'.module = st.module
  resolved : ∀ k, a.IsResolved k → b.IsResolved k ∧ b.get? k = a.get? k

namespace Store.Preserves

theorem refl (s : Store) : s.Preserves s :=
  ⟨rfl, rfl, fun _ st h => ⟨st, h, rfl⟩, fun _ h => ⟨h, rfl⟩⟩

theorem trans {a b c : Store} (h : a.Preserves b) (h' : b.Preserves c) :
    a.Preserves c where
  classes := h'.classes.trans h.classes
  aliases := h'.aliases.trans h.aliases
  registered k st hk := by
    obtain ⟨st', hst', hmodule⟩ := h.registered k st hk
    obtain ⟨st'', hst'', hmodule'⟩ := h'.registered k st' hst'
    exact ⟨st'', hst'', hmodule'.trans hmodule⟩
  resolved k hk := by
    obtain ⟨hres, hsame⟩ := h.resolved k hk
    obtain ⟨hres', hsame'⟩ := h'.resolved k hres
    exact ⟨hres', hsame'.trans hsame⟩

end Store.Preserves

theorem preserves_of_grows {a b : Store} (hgrows : a.Grows b)
    (hfreezes : a.Freezes b) : a.Preserves b where
  classes := hgrows.classes
  aliases := hgrows.aliases
  registered k st hk := by
    obtain ⟨st', hst', hmodule, -⟩ :=
      (hgrows.drafts k.package).structs k.name st hk
    exact ⟨st', hst', hmodule⟩
  resolved k hk := ⟨(hgrows.drafts k.package).resolved _ hk, hfreezes k hk⟩

/-- A class stays settled. -/
theorem Settled.lasts {c : ProgramClass} {s s' : Store} (h : s.Preserves s')
    (hc : Settled c s) : Settled c s' := by
  obtain ⟨st, hst, hc⟩ := hc
  obtain ⟨st', hst', hmodule⟩ := h.registered c.key st hst
  refine ⟨st', hst', fun hm =>
    (hc (hmodule.symm.trans hm)).imp (fun hres => (h.resolved _ hres).1) ?_⟩
  rw [h.classes]
  exact id

theorem Symbols.Declares.unique {t : Symbols} {c d : ProgramClass}
    (hc : t.Declares c) (hd : t.Declares d) (hmodule : c.module = d.module)
    (hname : c.name = d.name) : c = d := by
  obtain ⟨scope, decl⟩ := c
  obtain ⟨scope', decl'⟩ := d
  have hscope : some scope = some scope' := by
    rw [← hc.inTree, ← hd.inTree]
    exact congrArg t.scope? hmodule
  cases hscope
  have hdecl : some decl = some decl' := by
    rw [← hc.decl, ← hd.decl]
    exact congrArg scope.classes.get? hname
  cases hdecl
  rfl

/-- Nothing is registered in the first store. -/
theorem coherent_ofPackages (t : Symbols) (left : ProgramClass → Prop)
    (names : List String) (rootPackage : String) (log : Log) :
    Coherent t left { Store.ofPackages names rootPackage with log := log } := by
  have hdraft := draft_ofPackages names rootPackage log
  refine ⟨fun k st hk => ?_, fun k hk => absurd hk List.not_mem_nil,
    fun k hk => ?_⟩
  · obtain ⟨root, h⟩ := hdraft k.package
    unfold Store.get? at hk
    rw [h] at hk
    cases hk
  · obtain ⟨root, h⟩ := hdraft k.package
    unfold Store.IsResolved at hk
    rw [h] at hk
    exact absurd hk List.not_mem_nil

/-! ## Small changes -/

section Changes

variable {t : Symbols} {left : ProgramClass → Prop} {s s' : Store}

/-- Nothing that the invariant looks at has changed. -/
structure Store.Alike (a b : Store) : Prop where
  classes : b.classes = a.classes
  structs : ∀ k, b.get? k = a.get? k
  resolved : ∀ p, (b.draft p).resolved = (a.draft p).resolved

theorem Coherent.alike (h : Coherent t left s) (ha : s.Alike s') :
    Coherent t left s' := by
  have hresolved : ∀ k, s'.IsResolved k ↔ s.IsResolved k := fun k => by
    unfold Store.IsResolved
    rw [ha.resolved]
  refine ⟨fun k st hk => ?_, fun k hk => ?_, fun k hk => ?_⟩
  · rw [ha.structs] at hk
    rw [hresolved, ha.classes]
    exact h.home k st hk
  · rw [ha.classes] at hk
    rw [hresolved]
    exact h.waiting k hk
  · rw [hresolved] at hk
    obtain ⟨st, hst⟩ := h.registered k hk
    exact ⟨st, (ha.structs k).trans hst⟩

theorem Store.Alike.preserves (h : s.Alike s')
    (haliases : s'.aliases = s.aliases) : s.Preserves s' where
  classes := h.classes
  aliases := haliases
  registered k st hk := ⟨st, (h.structs k).trans hk, rfl⟩
  resolved k hk := by
    refine ⟨?_, h.structs k⟩
    unfold Store.IsResolved
    rw [h.resolved]
    exact hk

theorem alike_of_drafts (hd : s'.drafts = s.drafts)
    (hc : s'.classes = s.classes) : s.Alike s' := by
  cases s
  cases s'
  cases hd
  cases hc
  exact ⟨rfl, fun _ => rfl, fun _ => rfl⟩

theorem alike_setDraft {p : String} {d : Draft}
    (hget : ∀ n, d.get? n = (s.draft p).get? n)
    (hres : d.resolved = (s.draft p).resolved) : s.Alike (s.setDraft p d) := by
  refine ⟨rfl, fun k => ?_, fun q => ?_⟩
  · rw [Store.get?_setDraft]
    split
    · next hk =>
        rw [hget, ← hk]
        rfl
    · rfl
  · rw [Store.draft_setDraft]
    split
    · next hq => rw [hq, hres]
    · rfl

/-- Registering a class whose struct may wait, or is registered already. -/
theorem Coherent.register (h : Coherent t left s) {c : ProgramClass}
    (hc : t.Declares c)
    (hknown : left c ∨ c.key ∈ s.classes ∨ Registered c.key s) :
    Coherent t left (s.registered c) := by
  have hresolved : ∀ k, (s.registered c).IsResolved k ↔
      s.IsResolved k := fun k => by
    unfold Store.IsResolved
    rw [Store.resolved_registered]
  refine ⟨fun k st hk => ?_, fun k hk => ?_, fun k hk => ?_⟩
  · rw [hresolved, (s.registered_marks c).1]
    rw [Store.get?_registered] at hk
    split at hk
    · next he =>
        subst he
        cases hst : s.get? c.key with
        | some st' =>
            have hsame : s.structOf c = st' := by
              unfold Store.structOf
              rw [show (s.draft c.package).get? c.name = some st' from hst]
              rfl
            rw [hsame] at hk
            cases hk
            exact h.home c.key st hst
        | none =>
            have hplaceholder : s.structOf c =
                (s.draft c.package).placeholder c.name c.module c.doc := by
              unfold Store.structOf
              rw [show (s.draft c.package).get? c.name = none from hst]
              rfl
            rw [hplaceholder] at hk
            cases hk
            refine ⟨c, hc, rfl, rfl, rfl, .inr ?_⟩
            rcases hknown with hl | hk | ⟨st, hreg⟩
            · exact .inr hl
            · exact .inl hk
            · rw [hst] at hreg
              cases hreg
    · exact h.home k st hk
  · rw [(s.registered_marks c).1] at hk
    rw [hresolved]
    exact h.waiting k hk
  · rw [hresolved] at hk
    exact (h.registered k hk).adds (Store.Grows.registered s c).drafts

/-- Entering a class that is open: its placeholder is registered and marked in
one go, so it may wait whatever happens to it later. -/
theorem Coherent.enter (h : Coherent t left s) {c : ProgramClass}
    (hc : t.Declares c) (hopen : ¬s.Closes c) :
    Coherent t left ((s.registered c).entering c.key) := by
  have hwide : Coherent t (fun d => left d ∨ d = c) s :=
    ⟨fun k st hk => by
      obtain ⟨d, hd, hkey, hmodule, hname, hstate⟩ := h.home k st hk
      exact ⟨d, hd, hkey, hmodule, hname, hstate.imp_right fun hs =>
        hs.imp_right .inl⟩,
      h.waiting, h.registered⟩
  have hreg := hwide.register hc (.inl (.inr rfl))
  refine ⟨fun k st hk => ?_, fun k hk => ?_, hreg.registered⟩
  · obtain ⟨d, hd, hkey, hmodule, hname, hstate⟩ := hreg.home k st hk
    refine ⟨d, hd, hkey, hmodule, hname, hstate.imp_right ?_⟩
    rintro (hmem | hl | rfl)
    · exact .inl (List.mem_cons_of_mem _ hmem)
    · exact .inr hl
    · exact .inl (hkey ▸ List.mem_cons_self)
  · rcases List.mem_cons.mp hk with rfl | hk
    · intro hres
      refine hopen (.inr (.inl ?_))
      have := s.resolved_registered c c.package
      exact this ▸ hres
    · exact hreg.waiting k hk

/-- Leaving a class without its fields, which its struct must be allowed to. -/
theorem Coherent.leave {c : ProgramClass} {classes : List StructKey}
    (h : Coherent t left s) (hmarks : s.classes = c.key :: classes)
    (hc : t.Declares c) (hl : left c)
    (hown : ∀ st, s.get? c.key = some st → st.module = c.module) :
    Coherent t left (s.leaving c.key) := by
  have hclasses : (s.leaving c.key).classes = classes := by
    show s.classes.erase c.key = classes
    rw [hmarks, List.erase_cons_head]
  refine ⟨fun k st hk => ?_, fun k hk => ?_, h.registered⟩
  · obtain ⟨d, hd, hkey, hmodule, hname, hstate⟩ := h.home k st hk
    refine ⟨d, hd, hkey, hmodule, hname, hstate.imp_right fun hs => ?_⟩
    rcases hs with hmem | hl'
    · rw [hmarks] at hmem
      rcases List.mem_cons.mp hmem with he | hmem
      · refine .inr ?_
        have hsame : d = c := by
          refine hd.unique hc ?_ (congrArg StructKey.name (hkey.trans he))
          rw [he] at hk
          exact hmodule.symm.trans (hown st hk)
        rw [hsame]
        exact hl
      · exact .inl (by rw [hclasses]; exact hmem)
    · exact .inr hl'
  · rw [hclasses] at hk
    exact h.waiting k (by rw [hmarks]; exact List.mem_cons_of_mem _ hk)

/-- A class that is left with its fields has them in its struct, and no other
struct changes. -/
theorem Store.get?_finishing {c : ProgramClass} {st : Struct}
    (hst : s.get? c.key = some st) (fields : List StructField) (k : StructKey) :
    (s.finishing c fields).get? k =
      if k = c.key then some { st with fields := fields } else s.get? k :=
  (completing_eq (s := s.note _) hst fields k).1

theorem Store.isResolved_finishing {c : ProgramClass} {st : Struct}
    (hst : s.get? c.key = some st) (fields : List StructField) (k : StructKey) :
    (s.finishing c fields).IsResolved k ↔ k = c.key ∨ s.IsResolved k :=
  (completing_eq (s := s.note _) hst fields k).2

/-- Leaving a class with its fields. -/
theorem Coherent.finish {c : ProgramClass} {classes : List StructKey}
    (h : Coherent t left s) (hmarks : s.classes = c.key :: classes)
    (hfree : c.key ∉ classes) (hreg : Registered c.key s)
    (fields : List StructField) : Coherent t left (s.finishing c fields) := by
  obtain ⟨st, hst⟩ := hreg
  have hget := Store.get?_finishing hst fields
  have hresolved := Store.isResolved_finishing hst fields
  have hclasses : (s.finishing c fields).classes = classes := by
    show s.classes.erase c.key = classes
    rw [hmarks, List.erase_cons_head]
  refine ⟨fun k st' hk => ?_, fun k hk => ?_, fun k hk => ?_⟩
  · rw [hget] at hk
    rw [hresolved, hclasses]
    split at hk
    · next he =>
        cases hk
        obtain ⟨d, hd, hkey, hmodule, hname, -⟩ := h.home c.key st hst
        exact ⟨d, hd, hkey.trans he.symm, hmodule, hname, .inl (.inl he)⟩
    · next hne =>
        obtain ⟨d, hd, hkey, hmodule, hname, hstate⟩ := h.home k st' hk
        refine ⟨d, hd, hkey, hmodule, hname, hstate.imp .inr fun hs =>
          hs.imp_left fun hmem => ?_⟩
        rw [hmarks] at hmem
        exact (List.mem_cons.mp hmem).resolve_left hne
  · rw [hclasses] at hk
    rw [hresolved]
    rintro (rfl | hres)
    · exact hfree hk
    · exact h.waiting k (by rw [hmarks]; exact List.mem_cons_of_mem _ hk) hres
  · rw [hresolved] at hk
    unfold Registered
    rw [hget]
    split
    · exact ⟨_, rfl⟩
    · next hne => exact h.registered k (hk.resolve_left hne)

end Changes

/-! ## One level -/

/-- An expansion that keeps stores coherent and stops only where there is a
fault to come to. -/
structure Expansion.Tends (expand : Expansion) (t : Symbols)
    (visited left : ProgramClass → Prop) (n : Nat) : Prop where
  cls : ∀ c, t.Declares c → visited c →
    Keeps (tending t left n) (Stops t (.cls c)) Always
      (expand.cls c) fun _ => Settled c
  aliased : ∀ site scope name value, t.DeclaresAlias scope name value →
    Keeps (tending t left n)
      (fun e => isCall value = false ∧ Stops t (.expr scope value) e) Always
      (expand.aliased site scope name value) fun _ _ => True

section Level

variable {t : Symbols} {visited left : ProgramClass → Prop} {n : Nat}
  {expand : Expansion} {E : Stop → Prop}

theorem changeDraft_tends {P : Store → Prop} {package : String}
    {f : Draft → Draft} (hgrows : ∀ d, Draft.Grows d (f d))
    (hget : ∀ d n, Draft.get? (f d) n = d.get? n)
    (hres : ∀ d, (f d).resolved = d.resolved) :
    Keeps (tending t left n) E P (Resolve.changeDraft package f) fun _ _ =>
      True := by
  refine Keeps.modify fun s hs _ =>
    ⟨⟨.setDraft (hgrows _), fun k _ => ?_⟩, ⟨hs.1, ?_⟩, trivial⟩
  · exact (alike_setDraft (hget _) (hres _)).structs k
  · exact hs.2.alike (alike_setDraft (hget _) (hres _))

theorem addReference_tends {P : Store → Prop} (owner package : String) :
    Keeps (tending t left n) E P
      (Resolve.changeDraft owner (·.addReference package)) fun _ _ => True :=
  changeDraft_tends (fun d => Draft.grows_addReference d package)
    (fun d n => Draft.get?_addReference d package n) fun d =>
      Draft.resolved_addReference d package

theorem addUnresolved_tends {P : Store → Prop} (owner name : String) :
    Keeps (tending t left n) E P
      (Resolve.changeDraft owner (·.addUnresolved name)) fun _ _ => True :=
  changeDraft_tends (fun d => Draft.grows_addUnresolved d name)
    (fun _ _ => rfl) fun _ => rfl

theorem structRef_tends (h : expand.Tends t visited left n) (owner : String)
    {c : ProgramClass} (hc : t.Declares c) (hv : visited c) :
    Keeps (tending t left n) (Stops t (.cls c)) Always
      (structRef expand owner c) fun _ _ => True :=
  (h.cls c hc hv).bind fun _ =>
    (addReference_tends owner c.package).bind fun _ =>
    Keeps.pure fun _ _ _ => trivial

theorem namedType_tends (hk : t.Keyed) (hvisits : t.Visits visited left)
    (h : expand.Tends t visited left n) {site : Site}
    (hs : t.Has site.scope) {e : Expr} {dotted : String}
    (hm : Mentions site.scope e dotted) (row : Nat) :
    Keeps (tending t left n) (Stops t (.expr site.scope e)) Always
      (namedType t expand site row dotted) fun _ _ => True := by
  have hunfit : (t.lookup site.scope dotted).any Symbol.isType = false →
      ∀ message, Stops t (.expr site.scope e)
        (.fault (site.fault row message)) := fun hany message =>
    stops_of_unresolvable (.inr ⟨dotted, hm, hany⟩) row message
  unfold namedType
  cases hl : t.lookup site.scope dotted with
  | none => exact Keeps.throw (hunfit (by rw [hl]; rfl) _)
  | some symbol =>
      have howns := Symbols.owns_lookup hk hs hl
      cases symbol with
      | external name =>
          exact (addUnresolved_tends site.owner name).bind fun _ =>
            Keeps.pure fun _ _ _ => trivial
      | «alias» scope name value =>
          exact (h.aliased site scope name value howns).stop fun _ hstop =>
            hstop.2.lead (.aliased hm hl hstop.1)
      | cls c =>
          dsimp only
          cases henum : t.enumType c with
          | some type => exact Keeps.pure fun _ _ _ => trivial
          | none =>
              exact (structRef_tends h site.owner howns
                (hvisits.named c howns henum)).stop fun _ hstop =>
                hstop.lead (.named hm hl henum)
      | function scope decl => exact Keeps.throw (hunfit (by rw [hl]; rfl) _)
      | module scope => exact Keeps.throw (hunfit (by rw [hl]; rfl) _)

theorem annotation_tends (hk : t.Keyed) (hvisits : t.Visits visited left)
    (h : expand.Tends t visited left n) (site : Site)
    (hs : t.Has site.scope) (e : Expr) :
    Keeps (tending t left n) (Stops t (.expr site.scope e)) Always
      (annotationWith t expand site e) fun _ _ => True := by
  refine (annotation_keeps (R := fun _ _ => True) (V := fun _ _ => True)
    (fun _ _ _ _ h => h) (fun _ _ _ _ h => h) (fun _ _ hw => stops_of_wrong hw)
    fun dotted hm row => ?_).post fun _ _ _ _ => trivial
  exact (namedType_tends hk hvisits h hs hm row).post fun _ _ _ _ =>
    ⟨trivial, fun _ _ => trivial, trivial⟩

theorem collectFields_tends (hk : t.Keyed) (hvisits : t.Visits visited left)
    (h : expand.Tends t visited left n) {c : ProgramClass} (hc : t.Declares c)
    (hv : visited c) :
    Keeps (tending t left n) (Stops t (.cls c)) Always
      (collectFields t expand c) fun _ _ => True := by
  have hbases : Keeps (tending t left n) (Stops t (.cls c)) Always
      (baseFields expand (t.bases c)) fun _ _ => True := by
    refine Keeps.foldlM (J := fun _ _ => True) (fun _ b hb => ?_) _
    have hbase :=
      h.cls b (Symbols.declares_bases hk hc hb) (hvisits.bases c hc hv b hb)
    exact (hbase.stop fun _ hstop => hstop.lead (.base hb)).bind fun _ =>
      Keeps.pure fun _ _ _ => trivial
  refine hbases.bind fun inherited => ?_
  refine (Keeps.foldlM (J := fun _ _ => True) (fun _ f hf => ?_) _).bind
    fun fields => Keeps.pure fun _ _ _ => trivial
  have hfield :=
    annotation_tends hk hvisits h ⟨c.scope, c.package, c.name ++ "." ++ f.name⟩
    hc.inTree f.typeExpr
  have hown : Keeps (tending t left n) (Stops t (.cls c)) Always
      (ownField t expand c f) fun _ _ => True :=
    (hfield.stop fun _ hstop => hstop.lead (.field hf)).bind fun _ =>
      Keeps.pure fun _ _ _ => trivial
  exact hown.bind fun _ => Keeps.pure fun _ _ _ => trivial

/-- A class that is closed is registered already, or is being resolved. -/
theorem known_of_closes {s : Store} (hs : Coherent t left s) {c : ProgramClass}
    (h : s.Closes c) : c.key ∈ s.classes ∨ Registered c.key s := by
  rcases h with hmodule | hres | hmem
  · refine .inr ?_
    cases hst : s.get? c.key with
    | some st => exact ⟨st, hst⟩
    | none =>
        refine absurd ?_ hmodule
        unfold Store.structOf
        rw [show (s.draft c.package).get? c.name = none from hst]
        rfl
  · exact .inr (hs.registered c.key hres)
  · exact .inl hmem

theorem get?_registered_self (s : Store) (c : ProgramClass) :
    (s.registered c).get? c.key = some (s.structOf c) := by
  rw [Store.get?_registered, if_pos rfl]

theorem freezes_registered {s : Store} (hs : Coherent t left s)
    (c : ProgramClass) : s.Freezes (s.registered c) := by
  intro k hk
  rw [Store.get?_registered]
  split
  · next he =>
      obtain ⟨st, hst⟩ := hs.registered k hk
      rw [hst]
      rw [he] at hst
      unfold Store.structOf
      rw [show (s.draft c.package).get? c.name = some st from hst]
      rfl
  · rfl

/-- A class, from the moment it is entered to the moment it is left: on a
fault its struct waits, so it must be allowed to, and otherwise its struct
has its fields. -/
theorem entered_tends {s s' : Store} {c : ProgramClass} (hc : t.Declares c)
    (hopen : ¬s.Closes c) (hs : Coherent t left s)
    (hl : (tending t left n).leads ((s.registered c).entering c.key) s')
    (hs' : Coherent t left s') :
    (left c → (tending t left n).leads s (s'.leaving c.key) ∧
      Coherent t left (s'.leaving c.key)) ∧ ∀ fields, (tending t left n).leads s
        (s'.finishing c fields) ∧ Coherent t left (s'.finishing c fields) ∧
        (s'.finishing c fields).IsResolved c.key := by
  obtain ⟨hgrows, hfreezes⟩ := hl
  have hmarks : s'.classes = c.key :: s.classes := by
    rw [hgrows.classes]
    exact congrArg (c.key :: ·) (s.registered_marks c).1
  have hfree : c.key ∉ s.classes := fun hmem => hopen (.inr (.inr hmem))
  obtain ⟨st, hst, hmodule, -⟩ :=
    (hgrows.drafts c.package).structs c.name _ (get?_registered_self s c)
  have hown : st.module = c.module := by
    by_contra hne
    exact hopen (.inl fun he => hne (hmodule.trans he))
  -- the class that is entered is not resolved, so what is done to its struct
  -- leaves those that are
  have hunresolved : ∀ k, s.IsResolved k →
      k ≠ c.key ∧ s'.get? k = s.get? k := by
    intro k hk
    have hk' : (s.registered c).IsResolved k := by
      unfold Store.IsResolved
      rw [Store.resolved_registered]
      exact hk
    refine ⟨?_, (hfreezes k hk').trans (freezes_registered hs c k hk)⟩
    rintro rfl
    exact hopen (.inr (.inl hk))
  refine ⟨fun hleft =>
    ⟨⟨(Store.Grows.registered s c).trans (.leaving hgrows), fun k hk =>
    (hunresolved k hk).2⟩, hs'.leave hmarks hc hleft fun st' hst' => ?_⟩,
      fun fields => ?_⟩
  · rw [show s'.get? c.key = some st from hst] at hst'
    cases hst'
    exact hown
  · have hcompleted :
        s'.Grows
          ((s'.note (resolvedRecord c.key fields.length)).completing c
            fields) :=
      (show s'.Grows (s'.note _)
        from ⟨rfl, rfl, Store.adds_of_drafts rfl⟩).trans
        (.setDraft (Draft.grows_complete _ _ _))
    refine ⟨⟨(Store.Grows.registered s c).trans
      (.leaving (hgrows.trans hcompleted)), fun k hk => ?_⟩,
      hs'.finish hmarks hfree ⟨st, hst⟩ fields,
      (Store.isResolved_finishing hst fields c.key).mpr (.inl rfl)⟩
    obtain ⟨hne, hsame⟩ := hunresolved k hk
    exact ((Store.get?_finishing hst fields k).trans (if_neg hne)).trans hsame

/-- A class that is not open is resolved or being resolved, unless its struct is
that of another. -/
theorem settled_registered {s : Store} {c : ProgramClass} (h : s.Closes c)
    (hmodule : (s.structOf c).module = c.module) :
    (s.registered c).IsResolved c.key ∨ c.key ∈ (s.registered c).classes := by
  unfold Store.IsResolved
  rw [Store.resolved_registered, (s.registered_marks c).1]
  exact h.resolve_left fun hne => hne hmodule

/-- An open class is entered with one more mark, so with less room. -/
theorem entering_tends {s : Store} {c : ProgramClass} (hc : t.Declares c)
    (hopen : ¬s.Closes c) (hs : (tending t left (n + 1)).holds s) :
    (tending t left n).holds ((s.registered c).entering c.key) := by
  refine ⟨?_, hs.2.enter hc hopen⟩
  have hmark : c.key ∉ (s.registered c).classes := by
    rw [(s.registered_marks c).1]
    exact fun hmem => hopen (.inr (.inr hmem))
  have hless := free_entering hc hmark
  have hsame := t.free_registered s c
  have hfree : t.free s < n + 1 := hs.1
  omega

theorem resolveClass_tends (hk : t.Keyed) (hvisits : t.Visits visited left)
    (h : expand.Tends t visited left n) {c : ProgramClass} (hc : t.Declares c)
    (hv : visited c) : Keeps (tending t left (n + 1)) (Stops t (.cls c)) Always
    (resolveClass t expand c)
      fun _ => Settled c := by
  rintro s ⟨hfree, hs⟩ -
  obtain ⟨hclosed, hopened⟩ := resolveClass_steps (t := t) (s := s) expand c
  by_cases hcloses : s.Closes c
  · rw [hclosed hcloses]
    have hfree' := (t.free_registered s c).trans_lt hfree
    refine ⟨⟨.registered s c, freezes_registered hs c⟩,
      ⟨hfree', hs.register hc (.inr (known_of_closes hs hcloses))⟩, _,
      get?_registered_self s c, settled_registered hcloses⟩
  · rw [hopened hcloses]
    have hinner := entering_tends (n := n) hc hcloses ⟨hfree, hs⟩
    obtain ⟨hl, ⟨-, hs'⟩, hends⟩ :=
      collectFields_tends hk hvisits h hc hv _ hinner trivial
    have hroom : ∀ {after : Store}, s.Grows after → t.free after < n + 1 :=
      fun hg => (t.free_congr hg.classes hg.aliases).trans_lt hfree
    rcases hr : collectFields t expand c ((s.registered c).entering c.key)
      with ⟨e | fields, s'⟩ <;> rw [hr] at hl hs' hends
    · have hleft : left c := by
        rcases hvisits.left c hc hv with hleft | hnone
        · exact hleft
        · exact absurd hends (hnone e)
      obtain ⟨hlead, hcoherent⟩ := (entered_tends hc hcloses hs hl hs').1 hleft
      exact ⟨hlead, ⟨hroom hlead.1, hcoherent⟩, hends⟩
    · obtain ⟨hlead, hcoherent, hresolved⟩ :=
        (entered_tends hc hcloses hs hl hs').2 fields
      refine ⟨hlead, ⟨hroom hlead.1, hcoherent⟩, ?_⟩
      obtain ⟨st, hst⟩ := hcoherent.registered c.key hresolved
      exact ⟨st, hst, fun _ => .inl hresolved⟩

theorem expandAlias_tends (hk : t.Keyed) (hvisits : t.Visits visited left)
    (h : expand.Tends t visited left n) (site : Site) {scope : Scope}
    {name : String} {value : Expr} (ha : t.DeclaresAlias scope name value) :
    Keeps (tending t left (n + 1))
      (fun e => isCall value = false ∧ Stops t (.expr scope value) e)
      Always (expandAlias t expand site scope name value) fun _ _ => True := by
  intro s hs _
  rw [expandAlias_run]
  split
  · exact ⟨(tending t left (n + 1)).refl s, hs, trivial⟩
  · next hguard =>
      rw [not_or] at hguard
      have hinner :=
        (annotation_tends hk hvisits h
          { site with scope := scope } ha.inTree value).stop
        fun e hstop => (⟨Bool.eq_false_iff.mpr hguard.1, hstop⟩ :
          isCall value = false ∧ Stops t (.expr scope value) e)
      refine Keeps.within (C := tending t left (n + 1))
        (P := fun s => scope.module ++ "." ++ name ∉ s.aliases)
        (·.expanding (scope.module ++ "." ++ name))
        (·.expanded (scope.module ++ "." ++ name)) hinner
        (fun s hs hfree =>
          ⟨⟨?_, hs.2.alike (alike_of_drafts rfl rfl)⟩, trivial⟩)
        (fun s s' hs _ hl hs' => ?_) s hs hguard.2
      · have := free_expanding ha hfree
        exact Nat.lt_of_lt_of_le this (Nat.lt_succ_iff.mp hs.1)
      · have hgrows : s.Grows (s'.expanded (scope.module ++ "." ++ name)) :=
          .expanded hl.1
        exact ⟨⟨hgrows, hl.2⟩,
          ⟨(t.free_congr hgrows.classes hgrows.aliases).trans_lt hs.1,
          hs'.2.alike (alike_of_drafts rfl rfl)⟩, fun _ _ => trivial⟩

end Level

/-! ## All levels -/

theorem levels_tend {t : Symbols} (hk : t.Keyed)
    {visited left : ProgramClass → Prop}
    (hvisits : t.Visits visited left) (n : Nat) :
    Expansion.Tends ⟨classAt t n, aliasAt t n⟩ t visited left n := by
  induction n with
  | zero => exact ⟨fun _ _ _ _ hs => absurd hs.1 (Nat.not_lt_zero _),
      fun _ _ _ _ _ _ hs => absurd hs.1 (Nat.not_lt_zero _)⟩
  | succ n ih =>
      rw [levels_succ]
      refine ⟨fun c hc hv => ?_, fun site scope name value ha => ?_⟩
      · exact resolveClass_tends hk hvisits ih hc hv
      · exact expandAlias_tends hk hvisits ih site ha

end BridgeBindings
