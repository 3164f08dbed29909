import BridgeBindings.Proofs.Origins
import BridgeBindings.Proofs.Provenance
import BridgeBindings.Proofs.Requests

/-!
# What is known on the way

A resolution comes from one class or annotation to the next, and a proof about
it often carries something along: what was known at the item it has come from
gives what is known at the next one. If such knowledge lasts and follows every
lead, and recording references in a draft keeps the contract, then an annotation
keeps it as far as the classes and the aliases do to which it leads.
-/

namespace BridgeBindings

open Syntax

/-- Knowledge about items that lasts under a contract and follows
where they lead. -/
structure Guides (t : Symbols) (C : Contract) (G : Item → Store → Prop) :
    Prop where
  stable : ∀ item, C.Stable (G item)
  lead : ∀ {a b : Item} {s : Store}, t.Leads a b → G a s → G b s
  change : ∀ {P : Store → Prop} {p : String} {f : Draft → Draft},
    (∀ d, Draft.Grows d (f d)) → (∀ d n, Draft.get? (f d) n = d.get? n) →
    (∀ d, (f d).resolved = d.resolved) →
    Keeps C AnyStop P (Resolve.changeDraft p f) fun _ _ => True

/-- An expansion that keeps a contract where it is led to what it expands. -/
structure Expansion.Guided (expand : Expansion) (t : Symbols) (C : Contract)
    (G : Item → Store → Prop) : Prop where
  cls : ∀ c, t.Declares c →
    Keeps C AnyStop (G (.cls c)) (expand.cls c) fun _ _ => True
  aliased : ∀ site scope name value, t.DeclaresAlias scope name value →
    Keeps C AnyStop (fun s => isCall value = false → G (.expr scope value) s)
      (expand.aliased site scope name value) fun _ _ => True

section Guided

variable {t : Symbols} {C : Contract} {G : Item → Store → Prop}
  {expand : Expansion} (hG : Guides t C G) (h : expand.Guided t C G)

include hG h

theorem structRef_guided (owner : String) {c : ProgramClass}
    (hc : t.Declares c) :
    Keeps C AnyStop (G (.cls c)) (structRef expand owner c) fun _ _ => True :=
  (h.cls c hc).bind fun _ =>
    (hG.change (fun d => Draft.grows_addReference d c.package)
    (fun d n => Draft.get?_addReference d c.package n)
    fun d => Draft.resolved_addReference d c.package).bind fun _ =>
    Keeps.pure fun _ _ _ => trivial

/-- A name in an annotation is a step of what leads on. -/
theorem namedType_guided (hk : t.Keyed) {site : Site}
    (hs : t.Has site.scope) {e : Expr} {dotted : String}
    (hm : Mentions site.scope e dotted) (row : Nat) :
    Keeps C AnyStop (G (.expr site.scope e))
      (namedType t expand site row dotted) fun _ _ => True := by
  unfold namedType
  split
  · exact Keeps.throw trivial
  · exact (hG.change (fun d => Draft.grows_addUnresolved d _) (fun _ _ => rfl)
      fun _ => rfl).bind fun _ => Keeps.pure fun _ _ _ => trivial
  · next scope name value hl =>
      exact (h.aliased site scope name value (Symbols.owns_lookup hk hs hl)).pre
        fun s _ hled hcall => hG.lead (.aliased hm hl hcall) hled
  · next c hl =>
      split
      · exact Keeps.pure fun _ _ _ => trivial
      · next hnone =>
          exact (structRef_guided hG h site.owner
            (Symbols.owns_lookup hk hs hl)).pre fun s _ hled =>
            hG.lead (.named hm hl hnone) hled
  · exact Keeps.throw trivial

theorem annotation_guided (hk : t.Keyed) (site : Site)
    (hs : t.Has site.scope) (e : Expr) :
    Keeps C AnyStop (G (.expr site.scope e)) (annotationWith t expand site e)
      fun _ _ => True := by
  refine (annotation_keeps (R := fun _ _ => True) (V := fun _ _ => True)
    (fun _ _ _ _ h => h) (fun _ _ _ _ h => h) (fun _ _ _ => trivial)
    fun dotted hm row => ?_).post fun _ _ _ _ => trivial
  exact (((namedType_guided hG h hk hs hm row).carry (hG.stable _)).pre
    fun _ _ hled =>
    ⟨hled, hled⟩).post fun _ _ _ hpost => ⟨hpost.2, fun _ _ => trivial, trivial⟩

end Guided

/-- A call keeps the contract where all is known that it may come to. -/
theorem serve_guided {t : Symbols} {C : Contract} {G : Item → Store → Prop}
    (hG : Guides t C G) (h : t.expansion.Guided t C G) (hk : t.Keyed)
    {q : Request} (hq : q.InTree t) :
    Keeps C AnyStop (fun s => ∀ item, G item s) (t.serve q) fun _ _ =>
      True := by
  refine serve_keeps hq (fun c hc => ?_) (fun site e hs => ?_)
    fun owner c hc => ?_
  · exact (h.cls c hc).pre fun _ _ hall => hall _
  · exact (annotation_guided hG h hk site hs e).pre fun _ _ hall => hall _
  · exact (structRef_guided hG h owner hc).pre fun _ _ hall => hall _

end BridgeBindings
