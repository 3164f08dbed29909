import BridgeBindings.Proofs.Samples
import BridgeBindings.Proofs.Survey
import BridgeBindings.Proofs.Turns
import BridgeBindings.Proofs.Walks
import Mathlib.Data.List.Pairwise

/-!
# The surface and the packages

A scan gives each bound class one turn, in the order in which the objects are
bound, and tells classes apart by their modules. The surface takes all that the
classes answer. The packages take it too, but file it by package and class name.
So both say the same about what is exposed exactly if no two classes that are
bound and do not fail share a package and a name; then each has every public
method of each of these classes, once.
-/

namespace BridgeBindings

open Syntax Analyze

/-- The struct that a class puts on the surface, if it does not fail. -/
def Exposure.structs (t : Symbols) (x : Exposure) : List String :=
  if x.succeeds t then [x.cls.key.text] else []

/-- A turn that comes to an end: the class answers its methods or fails. -/
def Exposure.Ends (t : Symbols) (x : Exposure) : Prop :=
  ∀ e, x.outcome t = .error e → ∃ f, e = .fault f

/-- What the turns of some classes have come to: each of them has had one, and
what they have exposed is collected. -/
structure Scans (t : Symbols) (among : ProgramClass → Prop) (start : Store)
    (xs : List Exposure) (structs : List String) (methods : List BoundMethod)
    (s : Store) : Prop where
  turns : Turns t start xs s
  once : (xs.map (·.cls.qualifiedName)).Nodup
  only : ∀ x ∈ xs, among x.cls
  listed : ∀ c, among c → c.qualifiedName ∈ xs.map (·.cls.qualifiedName)
  ends : ∀ x ∈ xs, x.Ends t
  structs : structs.Perm (xs.flatMap (·.structs t))
  methods : methods.Perm (xs.flatMap (·.methods t))

namespace Scans

variable {t : Symbols} {among : ProgramClass → Prop} {start s s' : Store}
  {xs : List Exposure} {structs : List String} {methods : List BoundMethod}

/-- Nothing has had a turn. -/
theorem none (hturns : Turns t start [] s) (hnone : ∀ c, ¬among c) :
    Scans t among start [] [] [] s :=
  ⟨hturns, List.nodup_nil, fun _ hx => absurd hx List.not_mem_nil, fun c hc =>
    absurd hc (hnone c), fun _ hx => absurd hx List.not_mem_nil,
      .refl _, .refl _⟩

/-- A bound object that brings no class, or one that has had its turn. -/
theorem more {among' : ProgramClass → Prop}
    (h : Scans t among start xs structs methods s)
    (hturns : Turns t s [] s') (hmore : ∀ c, among c → among' c)
    (hlisted : ∀ c, among' c → among c ∨ c.qualifiedName ∈ xs.map
      (·.cls.qualifiedName)) :
    Scans t among' start xs structs methods s' where
  turns := by simpa using h.turns.append hturns
  once := h.once
  only x hx := hmore _ (h.only x hx)
  listed c hc := (hlisted c hc).elim (h.listed c) id
  ends := h.ends
  structs := h.structs
  methods := h.methods

/-- The classes said otherwise, and what they expose in another order. -/
theorem reorder {among' : ProgramClass → Prop} {structs' : List String}
    {methods' : List BoundMethod} (h : Scans t among start xs structs methods s)
    (hsame : ∀ c, among c ↔ among' c) (hstructs : structs'.Perm structs)
    (hmethods : methods'.Perm methods) :
    Scans t among' start xs structs' methods' s where
  turns := h.turns
  once := h.once
  only x hx := (hsame _).mp (h.only x hx)
  listed c hc := h.listed c ((hsame c).mpr hc)
  ends := h.ends
  structs := hstructs.trans h.structs
  methods := hmethods.trans h.methods

/-- A class that has its turn now. -/
theorem turn {among' : ProgramClass → Prop}
    (h : Scans t among start xs structs methods s)
    {c : ProgramClass} (hfresh : c.qualifiedName ∉ xs.map (·.cls.qualifiedName))
    (hturns : Turns t s [⟨c, s⟩] s') (hends : Exposure.Ends t ⟨c, s⟩)
    (hmore : ∀ c', among' c' ↔ among c' ∨ c' = c) :
    Scans t among' start (xs ++ [⟨c, s⟩]) (structs ++ Exposure.structs t ⟨c, s⟩)
      (methods ++ Exposure.methods t ⟨c, s⟩) s' where
  turns := h.turns.append hturns
  once := by
    rw [List.map_append]
    refine List.nodup_append.mpr
      ⟨h.once, List.nodup_singleton _, fun n hn n' hn' he => ?_⟩
    rw [he, List.mem_singleton.mp hn'] at hn
    exact hfresh hn
  only x hx := by
    rcases List.mem_append.mp hx with hx | hx
    · exact (hmore _).mpr (.inl (h.only x hx))
    · rw [List.mem_singleton.mp hx]
      exact (hmore c).mpr (.inr rfl)
  listed c' hc' := by
    rw [List.map_append, List.mem_append]
    rcases (hmore c').mp hc' with hc' | rfl
    · exact .inl (h.listed c' hc')
    · exact .inr (List.mem_singleton_self _)
  ends x hx := by
    rcases List.mem_append.mp hx with hx | hx
    · exact h.ends x hx
    · rw [List.mem_singleton.mp hx]
      exact hends
  structs := by
    rw [List.flatMap_append, List.flatMap_singleton]
    exact h.structs.append_right _
  methods := by
    rw [List.flatMap_append, List.flatMap_singleton]
    exact h.methods.append_right _

end Scans

/-! ## The scan -/

section Scan

variable {t : Symbols} {entry : Source} {scope : Scope} {calls : BridgeCalls}

/-- What a bound object does to a scan that goes on: nothing but a note, or it
gives a class its turn. -/
theorem add_cases {scan scan' : SurfaceScan} {e : Expr} {s s' : Store}
    (h : scan.add t entry scope calls e s = (.ok scan', s')) :
    (scan' = scan ∧ Turns t s [] s' ∧
        ∀ c, t.classOf scope calls e = some c → c.qualifiedName ∈ scan.seen) ∨
      ∃ c, t.classOf scope calls e = some c ∧ c.qualifiedName ∉ scan.seen ∧
        Turns t s [⟨c, s⟩] s' ∧ Exposure.Ends t ⟨c, s⟩ ∧
        scan'.seen = c.qualifiedName :: scan.seen ∧
        scan'.boundStructs = scan.boundStructs ++ Exposure.structs t ⟨c, s⟩ ∧
        scan'.methods = scan.methods ++ Exposure.methods t ⟨c, s⟩ := by
  unfold SurfaceScan.add at h
  -- an object without a class is only noted, a class that had its turn is
  -- passed over, and any other has its turn now, however that ends
  cases hclass : t.classOf scope calls e with
  | none =>
      rw [hclass] at h
      dsimp only at h
      cases htext : e.text with
      | error b =>
          rw [htext] at h
          cases h
      | ok text =>
          rw [htext] at h
          cases h
          exact .inl ⟨rfl, .note _ (.done _), nofun⟩
  | some c =>
      rw [hclass] at h
      dsimp only at h
      by_cases hseen : c.qualifiedName ∈ scan.seen
      · rw [if_pos (List.contains_iff_mem.mpr hseen)] at h
        cases h
        exact .inl ⟨rfl, .done s, fun c' hc' => by cases hc'; exact hseen⟩
      · rw [if_neg fun h => hseen (List.contains_iff_mem.mp h), run_bind] at h
        refine .inr ⟨c, rfl, hseen, ?_⟩
        have hturn : ∀ s', Turns t (Exposure.after t ⟨c, s⟩) [] s' →
            Turns t s [⟨c, s⟩] s' :=
          fun s' => .turn c
        unfold Resolve.attempt at h
        unfold Exposure.Ends Exposure.structs Exposure.succeeds Exposure.methods
        rcases hr : t.boundMethods c s with ⟨(f | b | _) | ms, s''⟩
        all_goals
          rw [hr] at h
          have houtcome : Exposure.outcome t ⟨c, s⟩ = _ := congrArg Prod.fst hr
          have hafter : Exposure.after t ⟨c, s⟩ = s'' := congrArg Prod.snd hr
          rw [hafter] at hturn
          cases h
        all_goals rw [houtcome]
        · exact ⟨hturn _ (.note _ (.done _)),
            fun e he => ⟨f, by cases he; rfl⟩, rfl, (List.append_nil _).symm,
            (List.append_nil _).symm⟩
        · exact ⟨hturn _ (.done _), nofun, rfl, rfl, rfl⟩

/-- The classes of some bound objects. -/
def Symbols.ClassAmong (t : Symbols) (scope : Scope) (calls : BridgeCalls)
    (es : List Expr) (c : ProgramClass) :
    Prop := ∃ e ∈ es, t.classOf scope calls e = some c

theorem Symbols.classAmong_append {es : List Expr} {e : Expr}
    {c : ProgramClass} : t.ClassAmong scope calls (es ++ [e]) c ↔
      t.ClassAmong scope calls es c ∨ t.classOf scope calls e = some c := by
  simp only [ClassAmong, List.mem_append, List.mem_singleton,
    or_and_right, exists_or, exists_eq_left]

theorem Symbols.classAmong_bound {config : Config}
    (hscope : t.scope? entry.module = some scope)
    {c : ProgramClass} : t.ClassAmong scope
      (BridgeCalls.collect (bridgeOf t config (some entry)) entry.tree)
      (BridgeCalls.collect (bridgeOf t config (some entry))
        entry.tree).bound c ↔ t.Binds config (some entry) c := by
  refine ⟨fun h => ⟨entry, scope, rfl, hscope, h⟩, ?_⟩
  rintro ⟨file, scope', hfile, hscope', h⟩
  cases hfile
  cases hscope.symm.trans hscope'
  exact h

/-- How far a scan has come when these objects have been looked at. -/
structure Scanning (t : Symbols) (scope : Scope) (calls : BridgeCalls)
    (start : Store) (done : List Expr) (scan : SurfaceScan) (xs : List Exposure)
    (s : Store) : Prop where
  scans : Scans t (t.ClassAmong scope calls done) start xs
    scan.boundStructs scan.methods s
  seen : ∀ n, n ∈ scan.seen ↔ n ∈ xs.map (·.cls.qualifiedName)

theorem Scanning.step {start s s' : Store} {done : List Expr}
    {scan scan' : SurfaceScan} {xs : List Exposure} {e : Expr}
    (h : Scanning t scope calls start done scan xs s)
    (hrun : scan.add t entry scope calls e s = (.ok scan', s')) :
    ∃ xs', Scanning t scope calls start (done ++ [e]) scan' xs' s' := by
  obtain ⟨rfl, hturns, hlisted⟩ |
      ⟨c, hclass, hnew, hturns, hends, hseen, hstructs, hmethods⟩ :=
    add_cases hrun
  · refine ⟨xs, h.scans.more hturns (fun c hc =>
      Symbols.classAmong_append.mpr (.inl hc)) (fun c hc => ?_), h.seen⟩
    exact (Symbols.classAmong_append.mp hc).imp_right fun hc =>
      (h.seen _).mp (hlisted c hc)
  · refine ⟨xs ++ [⟨c, s⟩], ?_, fun n => ?_⟩
    · rw [hstructs, hmethods]
      refine h.scans.turn (fun hn => hnew ((h.seen _).mpr hn))
        hturns hends fun c' => ?_
      rw [Symbols.classAmong_append, hclass, Option.some.injEq,
        eq_comm (a := c)]
    · rw [hseen, List.map_append, List.mem_cons, h.seen,
        List.mem_append, or_comm]
      exact or_congr_right List.mem_singleton.symm

end Scan

/-- An object is bound only if the program has a start and its entry
knows the bridge. -/
theorem Symbols.Binds.known {t : Symbols} {config : Config}
    {entry : Option Source} {c : ProgramClass} (h : t.Binds config entry c) :
    ∃ file id scope, entry = some file ∧
      (bridgeOf t config entry).entryModule = some file.module ∧
      (bridgeOf t config entry).localName = some id ∧
      t.scope? file.module = some scope := by
  obtain ⟨file, scope, rfl, hscope, e, he, -⟩ := h
  cases hid : (bridgeOf t config (some file)).localName with
  | none =>
      rw [BridgeCalls.bound_of_unknown hid] at he
      exact absurd he List.not_mem_nil
  | some id =>
      refine ⟨file, id, scope, rfl, ?_, rfl, hscope⟩
      unfold bridgeOf at hid ⊢
      dsimp only at hid ⊢
      split at hid
      · next hstartup => rw [if_pos hstartup]
      · cases hid

section Whole

variable {t : Symbols} {visited left : ProgramClass → Prop} {start : Store}

/-- A note at the end of a scan. -/
theorem noting {among : ProgramClass → Prop} {P : Store → Prop}
    {found : Surface × Table TypeFault}
    (h : ∀ s, P s →
      ∃ xs, Scans t among start xs found.1.boundStructs found.1.methods s)
    (r : LogRecord) :
    Keeps (lasting t left) (Never : Stop → Prop) P
      (do Resolve.note r; return found) fun found s => ∃ xs,
        Scans t among start xs found.1.boundStructs found.1.methods s := by
  intro s hs hp
  have hnote : Keeps (lasting t left) (Never : Stop → Prop) Always
      (Resolve.note r) fun _ _ => True :=
    note_lasts r
  obtain ⟨hlasts, hholds, -⟩ := hnote s hs trivial
  obtain ⟨xs, hxs⟩ := h s hp
  exact ⟨hlasts, hholds, xs,
    hxs.more (.note r (.done _)) (fun _ hc => hc) fun _ hc => .inl hc⟩

variable (hk : t.Keyed) (hvisits : t.Visits visited left) {config : Config}

include hk hvisits

theorem add_scans {file : Source} {scope : Scope}
    (hscope : t.scope? file.module = some scope) {done : List Expr}
    (scan : SurfaceScan) {e : Expr}
    (he : e ∈ (BridgeCalls.collect (bridgeOf t config (some file))
      file.tree).bound) :
    Keeps (lasting t left) (Breaking (t.Untold config (some file)))
      (fun s => Scanned t (t.Binds config (some file)) scan.failures ∧
        ∃ xs, Scanning t scope
          (BridgeCalls.collect (bridgeOf t config (some file)) file.tree) start
          done scan xs s)
      (scan.add t file scope
        (BridgeCalls.collect (bridgeOf t config (some file)) file.tree) e)
      fun scan s => Scanned t (t.Binds config (some file)) scan.failures ∧
      ∃ xs, Scanning t scope
        (BridgeCalls.collect (bridgeOf t config (some file)) file.tree) start
        (done ++ [e]) scan xs s := by
  rintro s hs ⟨hscanned, xs, h⟩
  obtain ⟨hlasts, hholds, hends⟩ :=
    add_lasts hk hvisits hscope scan he s hs hscanned
  rcases hrun : scan.add t file scope
    (BridgeCalls.collect (bridgeOf t config (some file)) file.tree) e s
    with ⟨stop | scan', s'⟩ <;> rw [hrun] at hlasts hholds hends
  · exact ⟨hlasts, hholds, hends⟩
  · exact ⟨hlasts, hholds, hends, h.step hrun⟩

/-- The scan of a program lets every class that is bound have one turn, unless
it comes to something that cannot be told. -/
theorem scanSurface_scans (config : Config) (entry : Option Source) :
    Keeps (lasting t left) (Breaking (t.Untold config entry))
      (fun s => s = start) (scanSurface t config entry) fun found s => ∃ xs,
        Scans t (t.Binds config entry) start xs found.1.boundStructs
          found.1.methods s := by
  -- without an entry file, or without an import of the bridge in it, no class
  -- is bound, and no class has a turn
  unfold scanSurface
  extract_lets bridge
  split
  · next file module hentry =>
      extract_lets surface
      split
      · next id scope hid hscope =>
          refine ((Keeps.foldlM_done (J := fun done (scan : SurfaceScan) s =>
            Scanned t (t.Binds config (some file)) scan.failures ∧
              ∃ xs, Scanning t scope (BridgeCalls.collect bridge file.tree)
                start done scan xs s)
              (fun done e he scan => add_scans hk hvisits hscope scan he) []
              {}).pre ?_).bind
                fun scan => ?_
          · rintro s - rfl
            refine ⟨fun x hx => absurd hx List.not_mem_nil, [],
              .none (.done s) ?_, fun n => Iff.rfl⟩
            rintro c ⟨e, he, -⟩
            exact absurd he List.not_mem_nil
          · extract_lets methods
            refine (noting (fun s h => ?_) _).stop fun _ h => h.elim
            obtain ⟨-, xs, hxs⟩ := h
            exact ⟨xs, hxs.scans.reorder
              (fun c => Symbols.classAmong_bound hscope)
              (List.mergeSort_perm _ _) (List.mergeSort_perm _ _)⟩
      · next hunknown =>
          refine (noting
            (fun s h => ⟨[], .none (h ▸ .done s) fun c hc => ?_⟩) _).stop
            fun _ h => h.elim
          obtain ⟨file', id, scope, hfile, -, hid, hscope⟩ := hc.known
          cases hfile
          exact hunknown id scope hid hscope
  · next hnone =>
      refine (noting
        (fun s h => ⟨[], .none (h ▸ .done s) fun c hc => ?_⟩) _).stop
        fun _ h => h.elim
      obtain ⟨file, id, scope, hfile, hmodule, -⟩ := hc.known
      exact hnone file _ hfile hmodule

end Whole

/-! ## Agreement -/

/-- The surface and the packages say the same: nothing is there twice, and each
package has the methods of the surface that belong to it. -/
structure Surface.Agrees (surface : Surface) (s : Store) : Prop where
  structs : surface.boundStructs.Nodup
  methods : (surface.methods.map (·.qualifiedName)).Nodup
  packages : ∀ q,
      (s.draft q).methods.values.Perm (surface.methods.filter (·.package = q))

/-- No two classes that have exposed their methods share a
package and a name. -/
def Apart (t : Symbols) (xs : List Exposure) : Prop :=
  ∀ x ∈ xs, ∀ y ∈ xs, x.succeeds t = true → y.succeeds t = true →
    x.cls.key = y.cls.key → x.cls = y.cls

theorem Filled.no_methods {t : Symbols} {s : Store}
    (hs : Filled t [] s) (q : String) : (s.draft q).methods = .empty := by
  have hvalues : (s.draft q).methods.values = [] :=
    List.eq_nil_iff_forall_not_mem.mpr fun m hm =>
      absurd (hs.covered q m hm) List.not_mem_nil
  rcases hd : (s.draft q).methods with ⟨es⟩
  rw [hd] at hvalues
  exact congrArg Table.mk (List.map_eq_nil_iff.mp hvalues)

section Agreement

variable {t : Symbols} {among : ProgramClass → Prop} {start s : Store}
  {xs : List Exposure} {structs : List String} {methods : List BoundMethod}

theorem Exposure.mem_structs {x : Exposure} {n : String} :
    n ∈ x.structs t ↔ x.succeeds t = true ∧ n = x.cls.key.text := by
  unfold Exposure.structs
  split
  · next h => rw [List.mem_singleton, h, eq_self_iff_true, true_and]
  · next h =>
      exact ⟨fun hn => absurd hn List.not_mem_nil, fun hn => absurd hn.1 h⟩

theorem Exposure.succeeds_of_mem {x : Exposure} {m : BoundMethod}
    (h : m ∈ x.methods t) : x.succeeds t = true := by
  unfold Exposure.methods at h
  unfold Exposure.succeeds
  cases ho : x.outcome t with
  | error e =>
      rw [ho] at h
      exact absurd h List.not_mem_nil
  | ok ms => rfl

theorem Exposure.Exposes.qualifiedName {x : Exposure} {ms : List BoundMethod}
    (h : x.Exposes t ms) {m : BoundMethod} (hm : m ∈ ms) :
    m.qualifiedName = x.cls.key.text ++ "." ++ m.name := by
  obtain ⟨hpackage, hname⟩ := h.owned m hm
  unfold BoundMethod.qualifiedName
  rw [hpackage, hname]
  rfl

variable (hk : t.Keyed) (hspelled : t.Spelled)

include hk hspelled

theorem Exposure.Exposes.plain {x : Exposure} (hc : t.Declares x.cls)
    {ms : List BoundMethod} (h : x.Exposes t ms) {m : BoundMethod}
    (hm : m ∈ ms) : '.' ∉ m.name.toList := by
  obtain ⟨d, hd, f, hf, hname⟩ :=
    (h.names m.name).mp (List.mem_map.mpr ⟨m, hm, rfl⟩)
  rw [← hname]
  exact hspelled.method d (Symbols.declares_inherited hk hc hd) f hf

/-- The methods of a class have different qualified names, and two classes have
none in common unless their structs are the same. -/
theorem Exposure.nodup_methods {x : Exposure} (hc : t.Declares x.cls) :
    ((x.methods t).map (·.qualifiedName)).Nodup := by
  cases hms : x.methods t with
  | nil => exact List.nodup_nil
  | cons m ms =>
      have h := x.exposes_of_mem hk hspelled hc
        (m := m) (by rw [hms]; exact List.mem_cons_self)
      rw [hms] at h
      refine List.pairwise_map.mpr ((List.pairwise_map.mp h.once).imp_of_mem ?_)
      intro a b ha hb hne he
      rw [h.qualifiedName ha, h.qualifiedName hb] at he
      exact hne (split_last_dot (h.plain hk hspelled hc ha)
        (h.plain hk hspelled hc hb) he).2

theorem Exposure.text_of_common {x y : Exposure} (hx : t.Declares x.cls)
    (hy : t.Declares y.cls) {m m' : BoundMethod} (hm : m ∈ x.methods t)
    (hm' : m' ∈ y.methods t) (h : m.qualifiedName = m'.qualifiedName) :
    x.cls.key.text = y.cls.key.text := by
  have hxs := x.exposes_of_mem hk hspelled hx hm
  have hys := y.exposes_of_mem hk hspelled hy hm'
  rw [hxs.qualifiedName hm, hys.qualifiedName hm'] at h
  exact (split_last_dot (hxs.plain hk hspelled hx hm)
    (hys.plain hk hspelled hy hm') h).1

namespace Scans

variable (h : Scans t among start xs structs methods s)
    (hdeclared : ∀ x ∈ xs, t.Declares x.cls)

include h hdeclared

omit hk in
theorem nodup_structs_iff : structs.Nodup ↔ Apart t xs := by
  rw [h.structs.nodup_iff, List.nodup_flatMap]
  constructor
  · rintro ⟨-, hpairs⟩ x hx y hy hxs hys hkey
    by_contra hne
    have hsymm :
        Std.Symm (Function.onFun List.Disjoint fun x : Exposure =>
          x.structs t) :=
      ⟨fun _ _ hd _ hn hn' => hd hn' hn⟩
    have hdisjoint :=
      hpairs.forall hx hy fun he => hne (congrArg Exposure.cls he)
    exact hdisjoint (Exposure.mem_structs.mpr ⟨hxs, rfl⟩)
      (Exposure.mem_structs.mpr ⟨hys, congrArg StructKey.text hkey⟩)
  · intro hapart
    refine ⟨fun x _ => ?_, (List.pairwise_map.mp h.once).imp_of_mem ?_⟩
    · unfold Exposure.structs
      split
      · exact List.nodup_singleton _
      · exact List.nodup_nil
    · intro x y hx hy hne n hnx hny
      obtain ⟨hxs, rfl⟩ := Exposure.mem_structs.mp hnx
      obtain ⟨hys, htext⟩ := Exposure.mem_structs.mp hny
      have hkey := hspelled.key (hdeclared x hx) (hdeclared y hy) htext
      exact hne (congrArg ProgramClass.qualifiedName
        (hapart x hx y hy hxs hys hkey))

theorem nodup_methods (hapart : Apart t xs) :
    (methods.map (·.qualifiedName)).Nodup := by
  rw [(h.methods.map _).nodup_iff, List.map_flatMap, List.nodup_flatMap]
  refine ⟨fun x hx => Exposure.nodup_methods hk hspelled (hdeclared x hx),
    (List.pairwise_map.mp h.once).imp_of_mem ?_⟩
  intro x y hx hy hne n hnx hny
  obtain ⟨m, hm, rfl⟩ := List.mem_map.mp hnx
  obtain ⟨m', hm', he⟩ := List.mem_map.mp hny
  have htext := Exposure.text_of_common hk hspelled (hdeclared x hx)
    (hdeclared y hy) hm hm' he.symm
  have hkey := hspelled.key (hdeclared x hx) (hdeclared y hy) htext
  exact hne (congrArg ProgramClass.qualifiedName
    (hapart x hx y hy (Exposure.succeeds_of_mem hm)
    (Exposure.succeeds_of_mem hm') hkey))

/-- A scan that starts without methods leaves the surface and the packages in
agreement exactly if the classes that do not fail are apart. -/
theorem agrees_iff (hs : Filled t [] start) {surface : Surface}
    (hstructs : surface.boundStructs = structs)
    (hmethods : surface.methods = methods) : surface.Agrees s ↔ Apart t xs := by
  refine ⟨fun hagrees => (h.nodup_structs_iff hspelled hdeclared).mp
    (hstructs ▸ hagrees.structs), fun hapart => ?_⟩
  have honce := h.nodup_methods hk hspelled hdeclared hapart
  refine ⟨hstructs ▸ (h.nodup_structs_iff hspelled hdeclared).mpr hapart,
    hmethods ▸ honce, fun q => ?_⟩
  obtain ⟨-, hbefore⟩ := h.turns.filled hk hdeclared hs
  rw [hmethods, h.turns.methods hk hspelled hdeclared hbefore q, hs.no_methods,
    Table.values_addMethods]
  · exact (h.methods.symm.filter _).trans (.refl _)
  · rw [(h.methods.map _).nodup_iff] at honce
    exact honce.sublist (List.filter_sublist.map _)
  · exact fun m _ hm => absurd hm List.not_mem_nil

end Scans

end Agreement

/-! ## What a scan comes to -/

/-- The class has failed, and no package has a method from it. -/
structure Exposure.Fails (t : Symbols) (x : Exposure) : Prop where
  fault : ∃ f, x.outcome t = .error (.fault f)
  unchanged : ∀ q, ((x.after t).draft q).methods = (x.before.draft q).methods

/-- What has become of the classes that are bound: each has had one turn, and
the surface is what those have exposed that do not fail. -/
structure Exposed (t : Symbols) (bound : ProgramClass → Prop)
    (surface : Surface) (start s : Store) (xs : List Exposure) : Prop where
  turns : Turns t start xs s
  once : (xs.map (·.cls)).Nodup
  bound : ∀ c, bound c ↔ c ∈ xs.map (·.cls)
  ends : ∀ x ∈ xs, x.Exposes t (x.methods t) ∨ x.Fails t
  structs : surface.boundStructs.Perm (xs.flatMap (·.structs t))
  methods : surface.methods.Perm (xs.flatMap (·.methods t))

theorem Symbols.Binds.declares {t : Symbols} (hk : t.Keyed) {config : Config}
    {entry : Option Source} {c : ProgramClass} (h : t.Binds config entry c) :
    t.Declares c := by
  obtain ⟨file, scope, -, hscope, e, -, hc⟩ := h
  exact Symbols.declares_classOfWithin hk (hk.scope _ _ hscope) hc

theorem Scans.exposed {t : Symbols} (hk : t.Keyed) (hspelled : t.Spelled)
    {bound : ProgramClass → Prop} {start s : Store} {xs : List Exposure}
    {surface : Surface}
    (h : Scans t bound start xs surface.boundStructs surface.methods s)
    (hbound : ∀ c, bound c → t.Declares c) (hs : Filled t [] start) :
    Exposed t bound surface start s xs := by
  have hdeclared : ∀ x ∈ xs, t.Declares x.cls :=
    fun x hx => hbound _ (h.only x hx)
  obtain ⟨-, hbefore⟩ := h.turns.filled hk hdeclared hs
  refine ⟨h.turns, ?_, fun c => ⟨fun hc => ?_, fun hc => ?_⟩,
    fun x hx => ?_, h.structs, h.methods⟩
  · exact List.pairwise_map.mpr ((List.pairwise_map.mp h.once).imp fun hne he =>
      hne (congrArg ProgramClass.qualifiedName he))
  · obtain ⟨x, hx, hname⟩ := List.mem_map.mp (h.listed c hc)
    exact List.mem_map.mpr
      ⟨x, hx, hspelled.unique (hdeclared x hx) (hbound c hc) hname⟩
  · obtain ⟨x, hx, rfl⟩ := List.mem_map.mp hc
    exact h.only x hx
  · cases ho : x.outcome t with
    | ok ms =>
        refine .inl ?_
        unfold Exposure.methods
        rw [ho]
        exact x.exposes hk hspelled (hdeclared x hx) ho
    | error e =>
        obtain ⟨f, rfl⟩ := h.ends x hx e ho
        exact .inr ⟨⟨f, ho⟩, x.methods_after_fault hk (hdeclared x hx)
          (hbefore x hx) ho⟩

/-- However far the classes of a program have been resolved, none of them is
being resolved any more. -/
theorem Order.run_lasting {p : Program} (o : Order p) :
    (lasting (Symbols.ofProgram p) AnyClass).holds o.run.2 :=
  (resolving_surveyed (E := AnyFault) (visits_any _) (fun _ h => h)
    (fun _ _ => trivial) o (fun _ => True) (fun _ _ _ _ => trivial)
    (fun _ _ _ _ _ => trivial) (Store.ofPackages p.packages.keys p.rootPackage)
    ⟨coherent_ofPackages _ _ _ _ [], rfl⟩ trivial).2.1

/-- The store that the scan of an analysis finds: nothing has stopped but at
what cannot be told, and no package has a method. -/
theorem Order.run_ready {p : Program} (config : Config) (o : Order p) :
    (∃ b, o.run.1 = .error (.broken b) ∧
      (Symbols.ofProgram p).Untold config p.entryFile b) ∨
      (∃ failures, o.run.1 = .ok failures) ∧
      Filled (Symbols.ofProgram p) [] o.run.2 := by
  have hk := Symbols.keyed_ofProgram p
  have hresolving := resolving_surveyed
    (E := fun f => ∃ b, f = .broken b ∧
      (Symbols.ofProgram p).Untold config p.entryFile b)
    (visits_any _) (fun _ h => h) (fun _ _ => trivial) o
    ((Symbols.ofProgram p).Binds config p.entryFile)
    (fun _ b hc hb => ⟨b, rfl, .record hc hb⟩)
    fun _ _ b hstarts hb => ⟨b, rfl, .part hstarts hb⟩
  have hfilled :
      Keeps .free AnyFault (Filled (Symbols.ofProgram p) []) o.resolving
      fun _ => Filled (Symbols.ofProgram p) [] :=
    (filled_of_sound (registerRecords_sound _)).ofResolve.bind fun _ =>
      Keeps.foldlM (J := fun _ => Filled (Symbols.ofProgram p) [])
        (fun failures package _ =>
        resolvePackage_filled hk
          (fun c hc => declares_records hk (o.classes_perm.mem_iff.mp hc))
          failures package) _
  obtain ⟨-, -, hends⟩ :=
    hresolving (Store.ofPackages p.packages.keys p.rootPackage)
    ⟨coherent_ofPackages _ _ _ _ [], rfl⟩ trivial
  obtain ⟨-, -, hfilled⟩ :=
    hfilled (Store.ofPackages p.packages.keys p.rootPackage) trivial
    (filled_ofPackages _ _ _ [])
  unfold Order.run
  rcases hr : o.resolving (Store.ofPackages p.packages.keys p.rootPackage) with
    ⟨e | failures, s⟩ <;>
    rw [hr] at hends hfilled
  · obtain ⟨b, rfl, hb⟩ := hends
    exact .inl ⟨b, rfl, hb⟩
  · exact .inr ⟨⟨failures, rfl⟩, hfilled⟩

/-- Where the decorators of every class have a text, it can be told which
classes are records. -/
theorem Symbols.breakdown?_eq_none {t : Symbols} (hk : t.Keyed)
    (h : ∀ c, t.Declares c → namingBreakdown? c.decl.decorators = none)
    {c : ProgramClass} (hc : t.Declares c) : t.breakdown? c = none := by
  have hwithin : ∀ depth c, t.Declares c →
      t.recordBreakdown? depth c = none := by
    intro depth
    induction depth with
    | zero => exact h
    | succ depth ih =>
        intro c hc
        rw [recordBreakdown?, h c hc]
        dsimp only
        split
        · rfl
        · refine List.findSome?_eq_none_iff.mpr fun d hd => ih d ?_
          exact declares_bases hk hc (List.mem_of_mem_take hd)
  unfold breakdown?
  split
  · rfl
  · exact hwithin maxBaseDepth c hc

/-- Resolving the classes of a program, or the scan behind it, ends over
something that cannot be told. -/
def Order.BreaksDown {p : Program} (o : Order p) (config : Config) : Prop :=
  ∃ b, (Symbols.ofProgram p).Untold config p.entryFile b ∧
    (o.run.1 = .error (.broken b) ∨
      (scanSurface (Symbols.ofProgram p) config p.entryFile o.run.2).1 =
      .error (.broken b))

/-- Whatever the order in which a program has been resolved, the scan comes to
its end, turn by turn, unless there is something that cannot be told. -/
theorem Order.run_scans {p : Program} (config : Config) (o : Order p) :
    o.BreaksDown config ∨ ∃ resolved surface failures s xs,
      o.run.1 = .ok resolved ∧
      scanSurface (Symbols.ofProgram p) config p.entryFile o.run.2 =
      (.ok (surface, failures), s) ∧ Filled (Symbols.ofProgram p) [] o.run.2 ∧
      Scans (Symbols.ofProgram p)
        ((Symbols.ofProgram p).Binds config p.entryFile) o.run.2 xs
        surface.boundStructs surface.methods s := by
  rcases o.run_ready config with ⟨b, hrun, huntold⟩ |
    ⟨⟨resolved, hresolved⟩, hfilled⟩
  · exact .inl ⟨b, huntold, .inl hrun⟩
  obtain ⟨-, -, hends⟩ :=
    scanSurface_scans (Symbols.keyed_ofProgram p) (visits_any _) config
    p.entryFile o.run.2 o.run_lasting rfl
  rcases hr : scanSurface (Symbols.ofProgram p) config p.entryFile o.run.2 with
    ⟨(_ | b | _) | ⟨surface, failures⟩, s⟩ <;> rw [hr] at hends
  · exact hends.elim
  · exact .inl ⟨b, hends, .inr (congrArg Prod.fst hr)⟩
  · exact hends.elim
  · obtain ⟨xs, hscans⟩ := hends
    exact .inr ⟨resolved, surface, failures, s, xs, hresolved, rfl,
      hfilled, hscans⟩

/-- Whatever the order in which a program has been resolved, the scan gives each
bound class one turn, and the surface and the packages agree exactly if no two
classes that expose their methods share a package and a name; unless there is
something that cannot be told. -/
theorem surface_agrees_iff (p : Program)
    (hspelled : (Symbols.ofProgram p).Spelled) (config : Config) (o : Order p) :
    o.BreaksDown config ∨ ∃ resolved surface failures s xs,
      o.run.1 = .ok resolved ∧
      scanSurface (Symbols.ofProgram p) config p.entryFile o.run.2 =
      (.ok (surface, failures), s) ∧
      Exposed (Symbols.ofProgram p)
        ((Symbols.ofProgram p).Binds config p.entryFile) surface o.run.2 s xs ∧
      (surface.Agrees s ↔ Apart (Symbols.ofProgram p) xs) := by
  have hk := Symbols.keyed_ofProgram p
  have hbound : ∀ c, (Symbols.ofProgram p).Binds config p.entryFile c →
      (Symbols.ofProgram p).Declares c := fun c hc => hc.declares hk
  refine (o.run_scans config).imp_right ?_
  rintro ⟨resolved, surface, failures, s, xs, hresolved, hrun, hfilled, hscans⟩
  exact ⟨resolved, surface, failures, s, xs, hresolved, hrun,
    hscans.exposed hk hspelled hbound hfilled,
    hscans.agrees_iff hk hspelled (fun x hx => hbound _ (hscans.only x hx))
      hfilled rfl rfl⟩

namespace Sample

/-- A class with one method. -/
def shop : ClassDef := cls "Shop" [] [.function ⟨start, false, "open",
  ⟨[], [⟨"self", none, none⟩], none, [], none⟩, [], [],
  some (.constant start .none)⟩]

def farSource : Source := source "other" "main" [.cls shop]

/-- Both shops are bound. -/
def nearSource : Source := source "main" "main"
  [usesBridge, .importModules [⟨"other", none⟩], .cls shop,
    mainFunction
      [.expr (.call start (.attribute start (name "webbridge") "bind")
      [.call start (name "Shop") [] [],
        .call start (.attribute start (name "other") "Shop") [] []]
      [])]]

/-- Two classes of one name in two modules of a package. -/
def twins : Program := program [nearSource, farSource]

theorem twins_symbols : Symbols.ofProgram twins =
    ⟨.ofList [("main", .ofSource nearSource),
      ("other", .ofSource farSource)]⟩ := by
  have hpackages : twins.sortedPackages =
      [⟨"main", "", [nearSource, farSource]⟩] := by
    unfold Program.sortedPackages
    rw [List.mergeSort_of_pairwise (by decide)]
    rfl
  unfold Symbols.ofProgram Program.files
  rw [hpackages]
  rfl

def nearShop : ProgramClass := ⟨.ofSource nearSource, shop⟩

def farShop : ProgramClass := ⟨.ofSource farSource, shop⟩

theorem twins_has {scope : Scope} (h : (Symbols.ofProgram twins).Has scope) :
    scope = .ofSource nearSource ∨ scope = .ofSource farSource := by
  have hscope : (scope.module, scope) ∈
      [("main", Scope.ofSource nearSource),
        ("other", .ofSource farSource)] := by
    rw [twins_symbols] at h
    exact Table.get?_ofList_mem h
  rcases List.mem_cons.mp hscope with he | hscope
  · exact .inl (congrArg Prod.snd he)
  · exact .inr (congrArg Prod.snd (List.mem_singleton.mp hscope))

theorem twins_declares {c : ProgramClass}
    (h : (Symbols.ofProgram twins).Declares c) :
    c = nearShop ∨ c = farShop := by
  obtain ⟨scope, decl⟩ := c
  have hdecl : decl ∈ scope.classes.values := Table.mem_values_of_get? h.decl
  rcases twins_has h.inTree with rfl | rfl
  · exact .inl (congrArg _ (List.mem_singleton.mp hdecl))
  · exact .inr (congrArg _ (List.mem_singleton.mp hdecl))

theorem twins_spelled : (Symbols.ofProgram twins).Spelled where
  cls c hc := by rcases twins_declares hc with rfl | rfl <;> decide
  method c hc f hf := by
    rcases twins_declares hc with rfl | rfl <;>
    · rw [List.mem_singleton.mp hf]
      decide

/-- What either shop opens with. -/
def opening : BoundMethod := ⟨"main", "Shop", "open", [], none, [], false⟩

theorem boundMethods_single {t : Symbols} {c : ProgramClass} {n : String}
    {m : BoundMethod} {s s' : Store}
    (h : t.describedMethods c s = (.ok ⟨[(n, m)]⟩, s')) :
    t.boundMethods c s = (.ok [m], s'.binding c.package m) := by
  have hsorted : sortedMethods ⟨[(n, m)]⟩ = [m] := by
    unfold sortedMethods
    rw [List.mergeSort_singleton]
    rfl
  rw [boundMethods_eq, run_bind, h]
  dsimp only
  rw [addDescribed_run, hsorted]
  rfl

/-- Each shop exposes its method, whatever the store. -/
theorem twins_methods (s : Store) :
    (Symbols.ofProgram twins).boundMethods nearShop s =
      (.ok [opening], s.binding "main" opening) ∧
    (Symbols.ofProgram twins).boundMethods farShop s =
      (.ok [opening], s.binding "main" opening) := by
  rw [twins_symbols]
  exact ⟨boundMethods_single (n := "open") rfl, boundMethods_single
    (n := "open") rfl⟩

def twinsCalls : BridgeCalls :=
  BridgeCalls.collect
    (bridgeOf (Symbols.ofProgram twins) config (some nearSource))
      nearSource.tree

theorem twins_bridge :
      (bridgeOf (Symbols.ofProgram twins) config
        (some nearSource)).entryModule =
      some "main" ∧
    (bridgeOf (Symbols.ofProgram twins) config (some nearSource)).localName =
    some "webbridge" ∧ (Symbols.ofProgram twins).scope? "main" = some
    (.ofSource nearSource) := by
  rw [twins_symbols]
  exact ⟨rfl, by decide +kernel, rfl⟩

/-- The objects that are bound are a shop of each module. -/
theorem twins_calls : ∃ near far, twinsCalls.bound = [near, far] ∧
    (Symbols.ofProgram twins).classOf (.ofSource nearSource) twinsCalls near =
    some nearShop ∧ (Symbols.ofProgram twins).classOf (.ofSource nearSource)
      twinsCalls far = some farShop := by
  have hnames :
      twinsCalls.bound.map (fun e => ((Symbols.ofProgram twins).classOf
      (.ofSource nearSource) twinsCalls e).map (·.qualifiedName)) =
        [some "main.Shop", some "other.Shop"] := by
    unfold twinsCalls
    rw [twins_symbols]
    decide +kernel
  have hclass (e : Expr) {c : ProgramClass}
      (h : (Symbols.ofProgram twins).classOf (.ofSource nearSource)
        twinsCalls e = some c) : c = nearShop ∨ c = farShop :=
    twins_declares
      (Symbols.declares_classOfWithin (Symbols.keyed_ofProgram twins)
      ((Symbols.keyed_ofProgram twins).scope _ _ twins_bridge.2.2) h)
  obtain ⟨near, rest, hbound, hnear, hrest⟩ := List.map_eq_cons_iff.mp hnames
  obtain ⟨far, rfl, hfar⟩ := List.map_eq_singleton_iff.mp hrest
  obtain ⟨c, hc, hmain⟩ := Option.map_eq_some_iff.mp hnear
  obtain ⟨d, hd, hother⟩ := Option.map_eq_some_iff.mp hfar
  refine ⟨near, far, hbound, ?_, ?_⟩
  · rcases hclass near hc with rfl | rfl
    · exact hc
    · exact absurd hmain (by decide)
  · rcases hclass far hd with rfl | rfl
    · exact absurd hother (by decide)
    · exact hd

/-- Nothing in a program is without a text if all its classes are shops,
which have neither fields nor decorators, it has no alias, and whatever it
binds is of a class. -/
theorem shops_told {p : Program} {config : Config}
    (hshops : ∀ c, (Symbols.ofProgram p).Declares c → c.decl = shop)
    (haliases : ∀ scope name value,
      ¬(Symbols.ofProgram p).DeclaresAlias scope name value)
    (hobjects : ∀ file scope, p.entryFile = some file →
      (Symbols.ofProgram p).scope? file.module = some scope →
        ∀ e ∈ (BridgeCalls.collect
          (bridgeOf (Symbols.ofProgram p) config (some file)) file.tree).bound,
          (Symbols.ofProgram p).classOf scope (BridgeCalls.collect
            (bridgeOf (Symbols.ofProgram p) config (some file)) file.tree) e ≠
            none)
    (b : Breakdown) : ¬(Symbols.ofProgram p).Untold config p.entryFile b := by
  have hk := Symbols.keyed_ofProgram p
  have hbound {c : ProgramClass}
      (h : (Symbols.ofProgram p).Binds config p.entryFile c)
      {d : ProgramClass} (hd : d ∈ (Symbols.ofProgram p).classChain c) :
      d.decl = shop :=
    hshops d (Symbols.declares_chainAt hk (h.declares hk) hd)
  have hfields : ∀ c, (Symbols.ofProgram p).Declares c →
      ∀ f ∈ c.decl.fields, f.typeExpr.dotted? ≠ none := by
    intro c hc f hf
    rw [hshops c hc] at hf
    cases hf
  intro huntold
  cases huntold with
  | record declared untold =>
      rw [Symbols.breakdown?_eq_none hk
        (fun c hc => by rw [hshops c hc]; rfl) declared] at untold
      cases untold
  | method isBound inChain untold =>
      rw [hbound isBound inChain] at untold
      cases untold
  | part starts untold =>
      cases starts with
      | cls declared =>
          exact Symbols.told_of_named hk hfields
            (fun scope name value h => absurd h (haliases scope name value))
            declared b untold
      | signature isBound signs =>
          obtain ⟨d, hd, -, f, hf, he⟩ := signs
          rw [hbound isBound hd] at hf
          rw [List.mem_singleton.mp hf] at he
          cases he
  | object isEntry hasScope isBound noClass =>
      rw [isEntry] at isBound noClass
      exact hobjects _ _ isEntry hasScope _ isBound noClass

theorem twins_told (b : Breakdown) :
    ¬(Symbols.ofProgram twins).Untold config twins.entryFile b := by
  refine shops_told (fun c hc => ?_) (fun scope name value h => ?_)
    (fun file scope hfile hscope e he => ?_) b
  · rcases twins_declares hc with rfl | rfl <;> rfl
  · rcases twins_has h.inTree with rfl | rfl <;> exact nomatch h.decl
  · obtain ⟨near, far, hcalls, hnear, hfar⟩ := twins_calls
    cases hfile
    cases twins_bridge.2.2.symm.trans hscope
    have hmem : e ∈ twinsCalls.bound := he
    rw [hcalls] at hmem
    rcases List.mem_cons.mp hmem with rfl | hmem
    · exact ne_of_eq_of_ne hnear (Option.some_ne_none _)
    · rw [List.mem_singleton.mp hmem]
      exact ne_of_eq_of_ne hfar (Option.some_ne_none _)

/-- One bound object of a class that exposes one method and has
not been seen. -/
theorem add_single {t : Symbols} {entry : Source} {scope : Scope}
    {calls : BridgeCalls} {scan : SurfaceScan} {e : Expr} {c : ProgramClass}
    {m : BoundMethod} {s s' : Store} (hc : t.classOf scope calls e = some c)
    (hnew : scan.seen.contains c.qualifiedName = false)
    (hm : t.boundMethods c s = (.ok [m], s')) :
    scan.add t entry scope calls e s = (.ok ⟨c.qualifiedName :: scan.seen,
      scan.boundStructs ++ [c.key.text], scan.methods ++ [m], scan.failures⟩,
      s') := by
  unfold SurfaceScan.add
  rw [hc]
  dsimp only
  rw [hnew, if_neg Bool.false_ne_true, run_bind]
  unfold Resolve.attempt
  rw [hm]
  rfl

/-- A scan that has come to its end, with what it has found put in order. -/
theorem scanSurface_run {t : Symbols} {file : Source} {scope : Scope}
    {module id : String} {scan : SurfaceScan} {s s' : Store}
    (hentry : (bridgeOf t config (some file)).entryModule = some module)
    (hlocal : (bridgeOf t config (some file)).localName = some id)
    (hscope : t.scope? file.module = some scope)
    (hscan : (BridgeCalls.collect (bridgeOf t config (some file))
      file.tree).bound.foldlM
      (SurfaceScan.add t file scope
        (BridgeCalls.collect (bridgeOf t config (some file)) file.tree))
        {} s = (.ok scan, s')) :
    ∃ surface r, scanSurface t config (some file) s =
    (.ok (surface, scan.failures), s'.note r) ∧
      surface.boundStructs = sortNames scan.boundStructs ∧
      surface.methods =
        scan.methods.mergeSort fun a b =>
          decide (a.qualifiedName ≤ b.qualifiedName) := by
  unfold scanSurface
  simp only [hentry, hlocal, hscope]
  rw [run_bind, hscan]
  exact ⟨_, _, rfl, rfl, rfl⟩

theorem twins_scan (s : Store) : ∃ surface r,
    scanSurface (Symbols.ofProgram twins) config twins.entryFile s =
    (.ok (surface, .empty),
      ((s.binding "main" opening).binding "main" opening).note r) ∧
    surface.boundStructs = ["main.Shop", "main.Shop"] ∧
    surface.methods = [opening, opening] := by
  obtain ⟨hentry, hlocal, hscope⟩ := twins_bridge
  obtain ⟨near, far, hbound, hnear, hfar⟩ := twins_calls
  obtain ⟨hnearMethods, -⟩ := twins_methods s
  obtain ⟨-, hfarMethods⟩ := twins_methods (s.binding "main" opening)
  have hscan :
      twinsCalls.bound.foldlM
        (SurfaceScan.add (Symbols.ofProgram twins) nearSource
      (.ofSource nearSource) twinsCalls) {} s =
        (.ok ⟨["other.Shop", "main.Shop"], ["main.Shop", "main.Shop"],
          [opening, opening], .empty⟩,
          (s.binding "main" opening).binding "main" opening) := by
    rw [hbound, List.foldlM_cons, run_bind, add_single hnear rfl hnearMethods]
    dsimp only
    rw [List.foldlM_cons, run_bind, add_single hfar rfl hfarMethods]
    rfl
  obtain ⟨surface, r, hrun, hstructs, hmethods⟩ :=
    scanSurface_run hentry hlocal hscope hscan
  refine ⟨surface, r, hrun, hstructs.trans ?_, hmethods.trans ?_⟩
  · exact List.mergeSort_of_pairwise (by decide)
  · exact List.mergeSort_of_pairwise (by decide)

/-- Both shops are on the surface under one name, and the package has
kept one method. -/
theorem twins_disagree : ∃ surface failures s,
    scanSurface (Symbols.ofProgram twins) config twins.entryFile
      (Order.sorted twins).run.2 = (.ok (surface, failures), s) ∧
    surface.boundStructs = ["main.Shop", "main.Shop"] ∧
    surface.methods.map (·.qualifiedName) =
    ["main.Shop.open", "main.Shop.open"] ∧
    (s.draft "main").methods.values = [opening] ∧ ¬surface.Agrees s := by
  obtain ⟨surface, r, hrun, hstructs, hmethods⟩ :=
    twins_scan (Order.sorted twins).run.2
  obtain ⟨b, -, huntold⟩ | ⟨-, hfilled⟩ := (Order.sorted twins).run_ready config
  · exact absurd huntold (twins_told b)
  refine ⟨surface, _, _, hrun, hstructs, ?_, ?_, fun hagrees => ?_⟩
  · rw [hmethods]
    rfl
  · show (([opening, opening].foldl (·.binding "main")
      (Order.sorted twins).run.2).draft "main").methods.values = _
    rw [Store.draft_bindings, if_pos rfl, Draft.methods_foldl,
      hfilled.no_methods]
    rfl
  · have hnodup := hagrees.structs
    rw [hstructs] at hnodup
    exact absurd hnodup (by decide)

/-- The two shops share package and name, so the surface and the packages
do not agree. -/
theorem twins_agree_iff : (Symbols.ofProgram twins).Spelled ∧
    ∃ surface failures s xs, scanSurface (Symbols.ofProgram twins) config
      twins.entryFile (Order.sorted twins).run.2 =
      (.ok (surface, failures), s) ∧
    Exposed (Symbols.ofProgram twins)
      ((Symbols.ofProgram twins).Binds config twins.entryFile)
      surface (Order.sorted twins).run.2 s xs ∧
    (surface.Agrees s ↔ Apart (Symbols.ofProgram twins) xs) ∧
    ¬Apart (Symbols.ofProgram twins) xs := by
  obtain ⟨b, huntold, -⟩ |
      ⟨_, surface, failures, s, xs, -, hrun, hexposed, hiff⟩ :=
    surface_agrees_iff twins twins_spelled config (.sorted twins)
  · exact absurd huntold (twins_told b)
  obtain ⟨surface', r, hrun', hstructs, -⟩ :=
    twins_scan (Order.sorted twins).run.2
  refine ⟨twins_spelled, surface, failures, s, xs, hrun, hexposed, hiff,
    fun hapart => ?_⟩
  rw [hrun] at hrun'
  cases hrun'
  have hnodup := (hiff.mpr hapart).structs
  rw [hstructs] at hnodup
  exact absurd hnodup (by decide)

end Sample

end BridgeBindings
