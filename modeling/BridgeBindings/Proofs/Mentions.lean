import BridgeBindings.Proofs.Malformed
import BridgeBindings.Proofs.Quoting

/-!
# The names that an annotation mentions

A quoted annotation is read like any other, in the scope of the one around it,
so the names that an annotation mentions are found through any depth of quotes.
The depth has an end because what is quoted is shorter than the text around it.

`annotation_keeps` is what the reading of an annotation keeps if asking for each
of these names does: nothing is left to be known of the quoted texts.
-/

namespace BridgeBindings

open Syntax

/-! ## Quotes -/

theorem text_not_mem_plainAsks {scope : Scope} {e : Expr} {text : String} :
    .text text ∉ plainAsks scope e := by
  intro h
  unfold plainAsks at h
  split at h
  · exact absurd h List.not_mem_nil
  · split at h
    · exact absurd h List.not_mem_nil
    · exact absurd (List.mem_singleton.mp h) (by simp)

theorem text_mem_appliedAsks {scope : Scope} {value : Expr} {args : List Expr}
    {asked : List (List Ask)} {text : String}
    (h : .text text ∈ appliedAsks scope value args asked) :
    ∃ as ∈ asked, .text text ∈ as := by
  unfold appliedAsks at h
  split at h
  · exact absurd h List.not_mem_nil
  · split at h
    · obtain ⟨as, has, h⟩ := List.mem_flatten.mp h
      exact ⟨as, mem_selected has, h⟩
    · exact absurd (List.mem_singleton.mp h) (by simp)

/-- A text that a reading asks for is quoted by the annotation. -/
theorem text_mem_asks (scope : Scope) (text : String) :
    (∀ e, .text text ∈ asks scope e → text ∈ e.quoted) ∧
      ∀ es, ∀ as ∈ asksAll scope es, .text text ∈ as → text ∈ quotedAll es := by
  apply asks.mutual_induct
  case case1 =>
      intro pos marked h
      rw [asks, if_pos rfl] at h
      exact absurd h List.not_mem_nil
  case case2 =>
      intro pos value marked hvalue h
      rw [asks, if_neg hvalue] at h
      cases List.mem_singleton.mp h
      exact List.mem_singleton_self _
  case case3 =>
      intro pos value hvalue h
      rw [asks] at h
      · exact absurd h List.not_mem_nil
      · exact hvalue
  case case4 =>
      intro pos left right hleft hright h
      rw [asks, List.mem_append] at h
      rw [Expr.quoted, List.mem_append]
      exact h.imp hleft hright
  case case5 =>
      intro pos value pos' elts helts h
      rw [asks] at h
      obtain ⟨as, has, h⟩ := text_mem_appliedAsks h
      rw [Expr.quoted, Expr.quoted]
      exact helts as has h
  case case6 =>
      intro pos value index hindex hread h
      rw [asks] at h
      · obtain ⟨as, has, h⟩ := text_mem_appliedAsks h
        cases List.mem_singleton.mp has
        rw [Expr.quoted]
        exact hread h
      · exact hindex
  case case7 =>
      intro e htext hconstant hbinary htuple hsubscript h
      rw [asks] at h
      · exact absurd h text_not_mem_plainAsks
      all_goals assumption
  case case8 =>
      intro as has
      rw [asksAll] at has
      exact absurd has List.not_mem_nil
  case case9 =>
      intro e es he hes as has h
      rw [asksAll] at has
      rw [quotedAll, List.mem_append]
      rcases List.mem_cons.mp has with rfl | has
      · exact .inl (he h)
      · exact .inr (hes as has h)

theorem trim_length (text : String) :
    (Text.trim text).length ≤ text.length := by
  have hend : ∀ cs : List Char, (Text.trimEndChars cs).length ≤ cs.length := by
    intro cs
    induction cs with
    | nil => exact Nat.le_refl _
    | cons c cs ih =>
        unfold Text.trimEndChars at ih ⊢
        rw [List.foldr_cons]
        split
        · exact Nat.zero_le _
        · rw [List.length_cons, List.length_cons]
          exact Nat.succ_le_succ ih
  unfold Text.trim
  rw [String.length_ofList]
  refine (hend _).trans ?_
  rw [← String.length_toList (s := text)]
  exact (List.dropWhile_sublist _).length_le

/-! ## Mentions -/

/-- A name that an annotation leaves to the program, in a quoted annotation or
outside of one. -/
inductive Mentions (scope : Scope) : Expr → String → Prop where
  | name {e : Expr} {dotted : String} (asked : .name dotted ∈ asks scope e) :
      Mentions scope e dotted
  | text {e inner : Expr} {text dotted : String}
      (asked : .text text ∈ asks scope e)
      (parsed : readExpression (Text.trim text) = .ok inner)
      (rest : Mentions scope inner dotted) : Mentions scope e dotted

/-- What is asked for anywhere within an annotation is mentioned. -/
theorem Encloses.mentions {scope : Scope} {e whole x : Expr} {dotted : String}
    (h : Encloses scope e whole) (hx : Reads scope whole x)
    (hd : Poses scope x (.name dotted)) : Mentions scope e dotted := by
  induction h with
  | here => exact .name (hx.mem_asks hd)
  | quoted isRead posed parsed _ ih =>
      exact .text (isRead.mem_asks posed) parsed (ih hx)

/-- A name mentions itself, unless it is one of the language. -/
theorem mentions_dotted {scope : Scope} {e : Expr} {spelled dotted : String}
    (he : e.dotted? = some spelled) (h : Mentions scope e dotted) :
    dotted = spelled ∧ builtinName scope spelled = none := by
  have hasks : asks scope e = if (builtinName scope spelled).isSome then []
      else [.name spelled] := by
    rw [asks_asName (readsAsName_of_dotted he), plainAsks, he]
  cases hb : builtinName scope spelled with
  | some builtin =>
      rw [hb, Option.isSome_some, if_pos rfl] at hasks
      cases h with
      | name asked => rw [hasks] at asked; cases asked
      | text asked => rw [hasks] at asked; cases asked
  | none =>
      rw [hb, Option.isSome_none, if_neg Bool.false_ne_true] at hasks
      cases h with
      | name asked =>
          rw [hasks] at asked
          cases List.mem_singleton.mp asked; exact ⟨rfl, rfl⟩
      | text asked => rw [hasks] at asked; cases List.mem_singleton.mp asked

/-- What a text mentions once it is read. -/
def TextMentions (scope : Scope) (text dotted : String) : Prop :=
  ∃ inner, readExpression (Text.trim text) = .ok inner ∧
    Mentions scope inner dotted

section Keeping

variable {C : Contract} {E : Stop → Prop} {P : Store → Prop}
  {R : StructKey → Store → Prop} {V : String → Store → Prop} {site : Site}
  {named : Nat → String → Resolve TypeRef}

/-- What is known of a question once it has been answered: that every name
behind it has been. -/
def Answered (V : String → Store → Prop) (scope : Scope) : Ask → Store → Prop
  | .name dotted => V dotted
  | .text text => fun s => ∀ dotted, TextMentions scope text dotted → V dotted s

theorem lasting_answered (hR : ∀ k, C.Stable (R k)) (hV : ∀ d, C.Stable (V d))
    (scope : Scope) : Lasting C R (Answered V scope) where
  refs := hR
  asked a := match a with
    | .name d => hV d
    | .text _ => fun hl h d hd => hV d hl (h d hd)

/-- Every name among these keeps the contract, and `P` as well. -/
def NamesKeep (C : Contract) (E : Stop → Prop) (P : Store → Prop)
    (R : StructKey → Store → Prop) (V : String → Store → Prop)
    (named : Nat → String → Resolve TypeRef) (among : String → Prop) : Prop :=
  ∀ dotted, among dotted → ∀ row, Keeps C E P (named row dotted)
    fun t s => P s ∧ Refers R t.structRefs s ∧ V dotted s

variable (hR : ∀ k, C.Stable (R k)) (hV : ∀ d, C.Stable (V d))

include hR hV

/-- Reading an expression, if the texts that it quotes keep the contract. -/
theorem expr_keeps {forward : Nat → String → Resolve TypeRef} {e : Expr}
    (hstop : ∀ row verdict, E (site.stop row verdict))
    (hnamed : NamesKeep C E P R V named (Mentions site.scope e))
    (hforward : ∀ text ∈ e.quoted,
      NamesKeep C E P R V named (TextMentions site.scope text) →
      Answers C E P R (Answered V site.scope) ⟨named, forward⟩ (.text text)) :
    Keeps C E P (readExpr ⟨named, forward⟩ site e) fun r s =>
      P s ∧ Refers R r.structRefs s ∧ ∀ d, Mentions site.scope e d → V d s := by
  obtain ⟨p, hp, fits⟩ := (readExpr_follows site).1 e
  rw [show readExpr _ site e = p.run _ from hp _]
  refine (fits.keeps (lasting_answered hR hV site.scope)
    (fun stop he => ?_) fun a ha => ?_).post fun r s _ h =>
    ⟨h.1, h.2.1, fun d hd => ?_⟩
  · obtain ⟨row, verdict, rfl⟩ := fits.stop stop he
    exact hstop row verdict
  · cases a with
    | name d => exact hnamed d (.name ha)
    | text x =>
        refine hforward x ((text_mem_asks site.scope x).1 e ha) fun d hd => ?_
        obtain ⟨inner, hinner, hd⟩ := hd
        exact hnamed d (.text ha hinner hd)
  · cases hd with
    | name ha => exact h.2.2 _ ha
    | text ha hinner hrest => exact h.2.2 _ ha d ⟨_, hinner, hrest⟩

/-- More levels than the text has characters suffice: each quoted text is
shorter than the one around it. -/
theorem readText_keeps (levels : Nat) {text : String}
    (hlevels : text.length < levels)
    (hstop : ∀ row verdict, E (site.stop row verdict))
    (hnamed : NamesKeep C E P R V named (TextMentions site.scope text))
    (row : Nat) : Keeps C E P (readText named site levels row text) fun t s =>
      P s ∧ Refers R t.structRefs s ∧ ∀ d, TextMentions site.scope text d →
        V d s := by
  induction levels generalizing text row with
  | zero => omega
  | succ levels ih =>
      rw [readText.eq_def]
      dsimp only
      cases he : readExpression (Text.trim text) with
      | error _ => exact Keeps.throw (hstop row (.ok (unreadableMessage text)))
      | ok e =>
          dsimp only
          refine (expr_keeps hR hV hstop
            (fun d hd => hnamed d ⟨e, he, hd⟩) ?_).map fun r s _ h =>
            ⟨h.1, fun k hk => h.2.1 k (Reading.mem_structRefs_toType hk),
              fun d hd => ?_⟩
          · intro quote hquote hmentioned row'
            have hshorter := quoted_shorter he hquote
            have htrim := trim_length text
            exact ih (by omega) hmentioned row'
          · obtain ⟨inner, hinner, hd⟩ := hd
            rw [he] at hinner
            cases hinner
            exact h.2.2 d hd

/-- The reading of an annotation, whatever may be wrong with it. -/
theorem annotation_answers {e : Expr}
    (hstop : ∀ row verdict, E (site.stop row verdict))
    (hnamed : NamesKeep C E P R V named (Mentions site.scope e)) :
    Keeps C E P (annotationType named site e) fun t s =>
      P s ∧ Refers R t.structRefs s ∧ ∀ d, Mentions site.scope e d → V d s := by
  unfold annotationType
  refine (expr_keeps hR hV hstop hnamed ?_).map fun r s _ h =>
    ⟨h.1, fun k hk => h.2.1 k (Reading.mem_structRefs_toType hk), h.2.2⟩
  intro text _ hmentioned row
  dsimp only [Names.answer]
  exact readText_keeps hR hV _ (Nat.lt_succ_self _) hstop hmentioned row

omit hR hV in
/-- Where the reading of an annotation stops: at a wrong part, or where a name
does. The levels never run out, which this walk does not see. -/
theorem annotation_stops {e : Expr} (hexhausted : E .exhausted)
    (hstop : ∀ x verdict, WrongWithin site.scope e x verdict →
      E (site.stop x.row verdict))
    (hnamed : ∀ dotted, Mentions site.scope e dotted → ∀ row,
      Keeps C E P (named row dotted) fun _ => P) :
    Keeps C E P (annotationType named site e) fun _ => P := by
  have hcomposes : Composes fun _ (step _ : Resolve _) =>
      Keeps C E P step fun _ => P :=
    ⟨fun _ => Keeps.pure fun _ _ h => h, fun h hf => h.bind hf⟩
  refine @annotation_matches _ hcomposes site site rfl
    (Keeps.throw hexhausted) named named e
    ⟨fun whole x verdict hwithin hx hw => ?_,
      fun whole x dotted hwithin hx hposed => ?_⟩
  · exact fun _ => Keeps.throw (hstop x verdict ⟨whole, hwithin, hx, hw⟩)
  · exact hnamed dotted (hwithin.mentions hx hposed) x.row

/-- The reading of an annotation: it stops where one of its names does, or at a
part of its own that is wrong. -/
theorem annotation_keeps {e : Expr}
    (hstop : ∀ x verdict, WrongWithin site.scope e x verdict →
      E (site.stop x.row verdict))
    (hnamed : NamesKeep C E P R V named (Mentions site.scope e)) :
    Keeps C E P (annotationType named site e) fun t s =>
      P s ∧ Refers R t.structRefs s ∧ ∀ d, Mentions site.scope e d → V d s := by
  have hanswers : Keeps C (fun stop => stop = .exhausted → E stop) P
      (annotationType named site e) fun t s => P s ∧ Refers R t.structRefs s ∧
      ∀ d, Mentions site.scope e d → V d s :=
    annotation_answers hR hV
      (fun row verdict h => absurd h (site.stop_ne_exhausted row verdict))
      fun d hd row => (hnamed d hd row).stop fun _ h _ => h
  have hstops : Keeps C (fun stop => stop = .exhausted ∨ E stop) P
      (annotationType named site e) fun _ => P :=
    annotation_stops (.inl rfl) (fun x verdict hw => .inr (hstop x verdict hw))
      fun d hd row =>
        ((hnamed d hd row).stop fun _ h => .inr h).post fun _ _ _ h => h.1
  refine ((hanswers.both hstops).stop fun stop h => ?_).post fun _ _ _ h => h.1
  exact h.2.elim h.1 id

end Keeping

end BridgeBindings
