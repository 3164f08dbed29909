import BridgeBindings.Proofs.Histories
import BridgeBindings.Proofs.Samples

/-!
# A package that is built is frozen

A package shares its structs with the builder that made it, so a builder that
changed one of them behind the package's back would change what is published.
No call does: once a package is built, each call is refused or leaves the
builder as it is, and the package seen through the builder's own structs is the
one that was built.

The invariant is about all calls, those before the package is built included:
what has been built is the draft as it stands. An edit breaks it only when it
reaches a draft that is frozen, and none gets there.
-/

namespace BridgeBindings

namespace Builder

/-- The builder after a call, refused or not. -/
def after (b : Builder) (c : Call) : Builder := (Building.call c b).2

/-- The builder after calls; a refusal does not keep from asking on. -/
def calls (b : Builder) (cs : List Call) : Builder := cs.foldl after b

/-- A package whose structs are the builder's own: each is seen as the
builder has it now. -/
def shown (b : Builder) (p : Package) : Package :=
  { p with structs :=
      ⟨p.structs.entries.map fun (n, st) => (n, (b.draft.get? n).getD st)⟩ }

/-- What has been built is the draft as it stands. -/
structure Sound (package : String) (b : Builder) : Prop where
  name : b.draft.name = package
  once : b.draft.structs.keys.Nodup
  built : ∀ p, b.built = some p → p = b.draft.freeze

theorem Sound.fresh (package : String) (root : Bool) :
    Sound package (fresh package root) where
  name := rfl
  once := Table.nodup_empty
  built _ h := by cases h

/-! ## Calls to a builder that is open -/

/-- An edit of an open builder is an edit of its draft, or is refused and leaves
no trace. -/
theorem edit_cases (d : Draft) (e : Edit) :
    Building.edit e ⟨d, none⟩ = (.ok (), ⟨d.edit e, none⟩) ∨
      ∃ f, Building.edit e ⟨d, none⟩ = (.error f, ⟨d, none⟩) := by
  by_cases hknown : ∀ name fields, e = .complete name fields →
    (d.get? name).isSome
  · exact .inl (Building.edit_open hknown)
  · push Not at hknown
    obtain ⟨name, fields, rfl, hnone⟩ := hknown
    refine .inr ⟨.unknownStruct name, ?_⟩
    show (Building.complete name fields >>= fun _ => pure ()) ⟨d, none⟩ = _
    rw [run_bind, Building.complete_unknown (by simpa using hnone)]

/-- An open builder builds its draft as it stands, or is refused and leaves no
trace. -/
theorem build_cases (d : Draft) :
    Building.build ⟨d, none⟩ = (.ok d.freeze, ⟨d, some d.freeze⟩) ∨
      ∃ f, Building.build ⟨d, none⟩ = (.error f, ⟨d, none⟩) := by
  rw [Building.build_open]
  split
  · exact .inl rfl
  · exact .inr ⟨_, rfl⟩

/-! ## Calls to a builder that is done -/

/-- Every call is refused or comes through, and changes nothing either way.
Where an operation looks for leave, nothing has been written yet. -/
theorem call_built {d : Draft} {p : Package} (c : Call) :
    Building.call c ⟨d, some p⟩ = (.ok (), ⟨d, some p⟩) ∨
      Building.call c ⟨d, some p⟩ =
      (.error (.finalized d.name), ⟨d, some p⟩) := by
  cases c with
  | build => exact .inl rfl
  | edit e =>
      cases e with
      | register name module comments =>
          show (Building.register name module comments >>= fun _ =>
            pure ()) _ = _ ∨
              (Building.register name module comments >>=
                fun _ => pure ()) _ = _
          rw [run_bind]
          cases hget : d.get? name with
          | some st =>
              rw [Building.register_taken (b := ⟨d, some p⟩) hget]
              exact .inl rfl
          | none =>
              rw [Building.register_free (b := ⟨d, some p⟩) hget]
              exact .inr rfl
      | addReference package =>
          show Building.addReference package ⟨d, some p⟩ = _ ∨
            Building.addReference package ⟨d, some p⟩ = _
          rw [Building.addReference_run]
          split
          · exact .inl rfl
          · exact .inr rfl
      | complete name fields => exact .inr rfl
      | addUnresolved qualifiedName => exact .inr rfl
      | markUsedAsData name => exact .inr rfl
      | addMethod m => exact .inr rfl

theorem after_built {d : Draft} {p : Package} (c : Call) :
    after ⟨d, some p⟩ c = ⟨d, some p⟩ := by
  unfold after
  rcases call_built (d := d) (p := p) c with h | h <;> rw [h]

theorem calls_built {d : Draft} {p : Package} (cs : List Call) :
    calls ⟨d, some p⟩ cs = ⟨d, some p⟩ := by
  induction cs with
  | nil => rfl
  | cons c cs ih =>
      rw [calls, List.foldl_cons, after_built]
      exact ih

/-! ## All calls -/

theorem Sound.after {package : String} {b : Builder}
    (h : Sound package b) (c : Call) : Sound package (b.after c) := by
  obtain ⟨d, built⟩ := b
  cases built with
  | some p => exact (after_built c).symm ▸ h
  | none =>
      unfold Builder.after
      cases c with
      | edit e =>
          show Sound package (Building.edit e ⟨d, none⟩).2
          rcases edit_cases d e with hrun | ⟨f, hrun⟩ <;> rw [hrun]
          · exact {
              name := (d.name_edit e).trans h.name
              once := Draft.once_edit h.once e
              built := fun p hp => by cases hp }
          · exact h
      | build =>
          show Sound package ((Building.build >>= fun _ => pure ()) ⟨d, none⟩).2
          rw [run_bind]
          rcases build_cases d with hrun | ⟨f, hrun⟩ <;> rw [hrun]
          · exact {
              name := h.name
              once := h.once
              built := fun p hp => by cases hp; rfl }
          · exact h

theorem Sound.calls {package : String} {b : Builder} (h : Sound package b)
    (cs : List Call) : Sound package (b.calls cs) := by
  induction cs generalizing b with
  | nil => exact h
  | cons c cs ih => exact ih (h.after c)

/-- A sound builder that builds has built the draft as it stands. -/
theorem Sound.of_build {package : String} {b b' : Builder} {p : Package}
    (h : Sound package b) (hb : Building.build b = (.ok p, b')) :
    b' = ⟨b.draft, some p⟩ ∧ p = b.draft.freeze := by
  obtain ⟨d, built⟩ := b
  cases built with
  | some p' =>
      cases hb
      exact ⟨rfl, h.built _ rfl⟩
  | none =>
      rcases build_cases d with hrun | ⟨f, hrun⟩ <;>
        rw [hrun] at hb <;> cases hb
      exact ⟨rfl, rfl⟩

/-- A frozen draft seen through itself is what it is. -/
theorem shown_freeze {d : Draft} (h : d.structs.keys.Nodup)
    (built : Option Package) : shown ⟨d, built⟩ d.freeze = d.freeze := by
  have hentry : ∀ e ∈ d.structs.sorted, (e.1, (d.get? e.1).getD e.2) = e := by
    rintro ⟨n, st⟩ he
    have hget : d.get? n = some st :=
      Table.get?_of_mem h (List.mem_mergeSort.mp he)
    rw [hget]
    rfl
  have hsame : (d.structs.sorted.map fun (n, st) => (n, (d.get? n).getD st)) =
      d.structs.sorted :=
    (List.map_congr_left hentry).trans (List.map_id _)
  exact congrArg (fun es => { d.freeze with structs := ⟨es⟩ }) hsame

end Builder

/-- A built package is frozen. Once a builder has built, whatever it was asked
before, every call that follows is refused or comes through, and the builder is
what it was in both cases; every further build answers the package of the first,
and that package is what it was, its structs seen as the builder has them
included. -/
theorem built_frozen (package : String) (root : Bool)
    (before : List Builder.Call) {p : Package} {b : Builder}
    (h : Building.build ((Builder.fresh package root).calls before) =
      (.ok p, b))
    (later : List Builder.Call) :
    b.calls later = b ∧
      (∀ c, Building.call c (b.calls later) = (.ok (), b.calls later) ∨
        Building.call c (b.calls later) =
        (.error (.finalized package), b.calls later)) ∧
      Building.build (b.calls later) = (.ok p, b) ∧
      (b.calls later).shown p = p := by
  have hsound := (Builder.Sound.fresh package root).calls before
  obtain ⟨rfl, hp⟩ := hsound.of_build h
  rw [Builder.calls_built]
  refine ⟨rfl, fun c => ?_, rfl, ?_⟩
  · have hcall := Builder.call_built
      (d := ((Builder.fresh package root).calls before).draft) (p := p) c
    rwa [hsound.name] at hcall
  · rw [hp]
    exact Builder.shown_freeze hsound.once _

namespace Sample

/-- A struct gets its fields, once a first build is refused for it. -/
def noteCalls : List Builder.Call :=
  [.edit (.register "Note" "main" []), .build,
    .edit (.complete "Note" [textField])]

/-- Calls that would change that struct, and others that would
change the package. -/
def lateCalls : List Builder.Call :=
  [.edit (.complete "Note" []), .edit (.register "Note" "other" []), .build,
    .edit (.register "Late" "main" []), .edit (.addReference "main"),
    .edit (.addReference "net"), .edit (.markUsedAsData "Note")]

/-- The note is built with its field, and none of the late calls changes it. -/
theorem note_frozen : ∃ p b,
    Building.build ((Builder.fresh "main" true).calls noteCalls) = (.ok p, b) ∧
      b.calls lateCalls = b ∧ Building.build (b.calls lateCalls) = (.ok p, b) ∧
        (b.calls lateCalls).shown p = p := by
  have hbuilds :
      (Building.build
        ((Builder.fresh "main" true).calls noteCalls)).1.toOption.isSome := by
    decide +kernel
  obtain ⟨p, hp⟩ := Option.isSome_iff_exists.mp hbuilds
  have hb : Building.build ((Builder.fresh "main" true).calls noteCalls) =
      (.ok p, _) :=
    Prod.ext (ok_of_toOption hp) rfl
  obtain ⟨hsame, -, hbuild, hshown⟩ :=
    built_frozen "main" true noteCalls hb lateCalls
  exact ⟨p, _, hb, hsame, hbuild, hshown⟩

end Sample

end BridgeBindings
