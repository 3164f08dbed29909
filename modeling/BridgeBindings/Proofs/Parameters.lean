import BridgeBindings.Json
import BridgeBindings.Proofs.Inert
import BridgeBindings.Proofs.Reexports

/-!
# The parameters of a bound method

The names of a method's parameters stand in three places: in the head of its
stub, in the call that the stub makes, and in its signature. All three can be
read back from the text, and they are the same list, without a reserved word.
What is not for sure is that the names differ. A reserved word is kept apart
from the reserved ones by an underscore, but not from a parameter that is called
so already; a stub that takes one name twice is no script in strict mode, and
the arguments of the call go nowhere.
-/

namespace BridgeBindings

open Render Script

/-! ## Renaming -/

namespace Render

variable {n n' : String} {names : List String}

/-- No name is reserved while the one it is renamed to is there as well. -/
def Unclashing (names : List String) : Prop :=
  ∀ n ∈ names, n ∈ reserved → n ++ "_" ∉ names

instance (names : List String) : Decidable (Unclashing names) :=
  inferInstanceAs (Decidable (∀ n ∈ names, n ∈ reserved → n ++ "_" ∉ names))

theorem paramName_of_mem (h : n ∈ reserved) : paramName n = n ++ "_" :=
  if_pos (List.contains_iff_mem.mpr h)

theorem paramName_of_not_mem (h : n ∉ reserved) : paramName n = n :=
  if_neg fun hc => h (List.contains_iff_mem.mp hc)

/-- No reserved word ends in an underscore. -/
theorem underscored_free (n : String) : n ++ "_" ∉ reserved := by
  have hends : ∀ r ∈ reserved, r.toList.getLast? ≠ some '_' := by decide
  intro h
  refine hends _ h ?_
  rw [String.toList_append, List.getLast?_append]
  rfl

theorem paramName_free (n : String) : paramName n ∉ reserved := by
  by_cases h : n ∈ reserved
  · rw [paramName_of_mem h]
    exact underscored_free n
  · rwa [paramName_of_not_mem h]

/-- Two names become one only if one of them is what the other is renamed to. -/
theorem paramName_eq (h : paramName n = paramName n') :
    n = n' ∨ (n ∈ reserved ∧ n' = n ++ "_") ∨
    (n' ∈ reserved ∧ n = n' ++ "_") := by
  by_cases hn : n ∈ reserved <;> by_cases hn' : n' ∈ reserved
  · rw [paramName_of_mem hn, paramName_of_mem hn'] at h
    exact .inl ((String.append_left_inj "_").mp h)
  · rw [paramName_of_mem hn, paramName_of_not_mem hn'] at h
    exact .inr (.inl ⟨hn, h.symm⟩)
  · rw [paramName_of_not_mem hn, paramName_of_mem hn'] at h
    exact .inr (.inr ⟨hn', h⟩)
  · rw [paramName_of_not_mem hn, paramName_of_not_mem hn'] at h
    exact .inl h

theorem nodup_paramName_iff (h : names.Nodup) :
    (names.map paramName).Nodup ↔ Unclashing names := by
  rw [List.nodup_map_iff_inj_on h]
  constructor
  · intro hinj n hn hreserved hmem
    have heq := hinj n hn (n ++ "_") hmem (by
      rw [paramName_of_mem hreserved,
        paramName_of_not_mem (underscored_free n)])
    exact underscored_free n (heq ▸ hreserved)
  · intro hfree n hn n' hn' heq
    rcases paramName_eq heq with rfl | ⟨hreserved, rfl⟩ | ⟨hreserved, rfl⟩
    · rfl
    · exact absurd hn' (hfree n hn hreserved)
    · exact absurd hn (hfree n' hn' hreserved)

end Render

/-! ## Words -/

namespace Text

/-- A text of characters that go on an identifier, at least one. -/
def IsWord (s : String) : Prop :=
  s ≠ "" ∧ ∀ c ∈ s.toList, extendsIdentifier c = true

theorem extends_of_opens {c : Char} (h : opensIdentifier c = true) :
    extendsIdentifier c = true := by
  unfold opensIdentifier at h
  unfold extendsIdentifier
  split
  · rw [if_pos ‹_›] at h
    simp only [Char.isAlphanum, Bool.or_eq_true] at h ⊢
    exact h.imp_left .inl
  · rw [if_neg ‹_›] at h
    rw [h, Bool.true_or]

theorem isWord_of_isIdentifier {s : String} (h : isIdentifier s = true) :
    IsWord s :=
  ⟨ne_empty_of_isIdentifier h, fun _ hc =>
    (opens_or_extends h hc).elim extends_of_opens id⟩

theorem IsWord.paramName {s : String} (h : IsWord s) :
    IsWord (paramName s) := by
  by_cases hs : s ∈ reserved
  · rw [paramName_of_mem hs]
    refine ⟨fun he => h.1 (String.append_eq_empty_iff.mp he).1, fun c hc => ?_⟩
    rw [String.toList_append] at hc
    rcases List.mem_append.mp hc with hc | hc
    · exact h.2 c hc
    · rw [List.mem_singleton.mp hc]
      rfl
  · rwa [paramName_of_not_mem hs]

/-- The words of a text: what stands between the characters that no
identifier has. -/
def words (cs : List Char) : List String :=
  ((cs.splitOnP fun c => !extendsIdentifier c).filter (· ≠ [])).map
    String.ofList

theorem words_append {c : Char} (h : extendsIdentifier c = false)
    (as bs : List Char) : words (as ++ c :: bs) = words as ++ words bs := by
  unfold words
  rw [List.splitOnP_append_cons as bs (by simpa using h), List.filter_append,
    List.map_append]

theorem words_cons {c : Char} (h : extendsIdentifier c = false)
    (cs : List Char) : words (c :: cs) = words cs := words_append h [] cs

theorem words_of_isWord {s : String} (h : IsWord s) : words s.toList = [s] := by
  have hne : s.toList ≠ [] := fun he => h.1 (String.toList_eq_nil_iff.mp he)
  unfold words
  rw [List.splitOnP_eq_singleton fun c hc => by simpa using h.2 c hc]
  simp [hne]

theorem words_listing {names : List String} (h : ∀ n ∈ names, IsWord n) :
    words (", ".intercalate names).toList = names := by
  induction names with
  | nil => rfl
  | cons n names ih =>
      have hn := words_of_isWord (h n List.mem_cons_self)
      have hnames := ih fun n' hn' => h n' (List.mem_cons_of_mem n hn')
      cases names with
      | nil => exact hn
      | cons n' names =>
          rw [String.intercalate_cons_cons, String.toList_append,
            String.toList_append, show ", ".toList = [',', ' '] from rfl,
            List.append_assoc, List.cons_append, List.singleton_append,
            words_append (by decide), hn, words_cons (by decide), hnames]
          rfl

theorem not_mem_listing {names : List String}
    (h : ∀ n ∈ names, IsWord n) {c : Char} (hsep : c ∉ ", ".toList)
    (hword : extendsIdentifier c = false) :
    c ∉ (", ".intercalate names).toList := by
  induction names with
  | nil => exact List.not_mem_nil
  | cons n names ih =>
      have hn : c ∉ n.toList := fun hc => by
        rw [(h n List.mem_cons_self).2 c hc] at hword
        cases hword
      have hnames := ih fun n' hn' => h n' (List.mem_cons_of_mem n hn')
      by_cases hnil : names = []
      · rwa [hnil, String.intercalate_singleton]
      · rw [String.intercalate_cons_of_ne_nil hnil, String.toList_append,
          String.toList_append]
        simp only [List.mem_append, not_or]
        exact ⟨⟨hn, hsep⟩, hnames⟩

end Text

/-! ## The three places -/

namespace Render

/-- The words in a line behind its last opening bracket, up to the
next closing one. -/
def listed (opening closing : Char) (line : String) : List String :=
  Text.words ((line.toList.reverse.takeWhile (· ≠ opening)).reverse.takeWhile
    (· ≠ closing))

theorem listed_eq {opening closing : Char} {line : String}
    {before inside after : List Char}
    (hline : line.toList = before ++ opening :: (inside ++ closing :: after))
    (hopening : opening ∉ inside ++ closing :: after)
    (hclosing : closing ∉ inside) :
    listed opening closing line = Text.words inside := by
  have hbehind : (line.toList.reverse.takeWhile (· ≠ opening)).reverse =
      inside ++ closing :: after := by
    rw [hline, List.reverse_append, List.reverse_cons, List.append_assoc,
      List.takeWhile_append_of_pos fun c hc => by
        simpa using fun he : c = opening =>
          hopening (he ▸ List.mem_reverse.mp hc)]
    simp
  rw [listed, hbehind, List.takeWhile_append_of_pos fun c hc => by
    simpa using fun he : c = closing => hclosing (he ▸ hc)]
  simp

/-- The names in front of some types, where a comma divides each type from
the next name. -/
def namesBefore : List String → List Char → Option (List String)
  | [], _ => some []
  | type :: types, cs =>
    match (cs.dropWhile Text.extendsIdentifier).dropPrefix?
        (": " ++ type).toList with
    | some rest =>
      (namesBefore types (rest.drop ", ".length)).map
        (String.ofList (cs.takeWhile Text.extendsIdentifier) :: ·)
    | none => none

theorem namesBefore_cons {name type : String} {types : List String}
    {rest : List Char} (h : Text.IsWord name) :
    namesBefore (type :: types) ((name ++ ": " ++ type).toList ++ rest) =
      (namesBefore types (rest.drop ", ".length)).map (name :: ·) := by
  have hchars : (name ++ ": " ++ type).toList ++ rest =
      name.toList ++ ((": " ++ type).toList ++ rest) := by
    simp only [String.toList_append, List.append_assoc]
  have hdrop :
      ((": " ++ type).toList ++ rest).dropWhile Text.extendsIdentifier =
      (": " ++ type).toList ++ rest := by
    rw [String.toList_append]
    rfl
  have htake :
      ((": " ++ type).toList ++ rest).takeWhile
        Text.extendsIdentifier = [] := by
    rw [String.toList_append]
    rfl
  have hprefix : ((": " ++ type).toList ++ rest).dropPrefix?
      (": " ++ type).toList = some rest :=
    List.dropPrefix?_eq_some_iff.mpr ⟨_, rfl, beq_self_eq_true _⟩
  rw [namesBefore, hchars, List.dropWhile_append_of_pos h.2,
    List.takeWhile_append_of_pos h.2, hdrop, htake, hprefix, List.append_nil,
    String.ofList_toList]

theorem namesBefore_params (package : String) {params : List MethodParam}
    (h : ∀ p ∈ params, Text.IsWord (paramName p.name)) (rest : List Char) :
    namesBefore (params.map (typeScript package ·.type))
        ((", ".intercalate (params.map fun p =>
          paramName p.name ++ ": " ++ typeScript package p.type)).toList ++
            rest) =
      some (params.map (paramName ·.name)) := by
  induction params with
  | nil => rfl
  | cons p params ih =>
      have hp := h p List.mem_cons_self
      have hparams := ih fun q hq => h q (List.mem_cons_of_mem p hq)
      by_cases hnil : params = []
      · subst hnil
        rw [List.map_singleton, List.map_singleton,
          String.intercalate_singleton, namesBefore_cons hp]
        rfl
      · rw [List.map_cons, List.map_cons, List.map_cons,
          String.intercalate_cons_of_ne_nil (by simpa using hnil),
          String.toList_append, String.toList_append, List.append_assoc,
          List.append_assoc, namesBefore_cons hp, show ", ".length =
          ", ".toList.length from rfl, List.drop_left, hparams]
        rfl

end Render

/-! ## Calls -/

/-- What a script in strict mode hands on to a call that sends some names, when
it is a function that takes some names and is given arguments for them. It is
none if a name is taken twice or is reserved, or if a name that it sends is none
that it takes. -/
def forwards (taken sent : List String) (args : List Json) :
    Option (List Json) :=
  if taken.Nodup ∧ ∀ n ∈ taken, n ∉ reserved then
    sent.mapM fun n => (taken.zip args).lookup n
  else none

theorem mapM_congr {f g : String → Option Json} {names : List String}
    (h : ∀ n ∈ names, f n = g n) : names.mapM f = names.mapM g := by
  induction names with
  | nil => rfl
  | cons n names ih =>
      rw [List.mapM_cons, List.mapM_cons, h n List.mem_cons_self,
        ih fun n' hn' => h n' (List.mem_cons_of_mem n hn')]

theorem mapM_lookup_zip {taken : List String} {args : List Json}
    (h : taken.Nodup) (hlength : args.length = taken.length) :
    taken.mapM (fun n => (taken.zip args).lookup n) = some args := by
  induction taken generalizing args with
  | nil =>
      rw [List.eq_nil_of_length_eq_zero hlength]
      rfl
  | cons n taken ih =>
      obtain ⟨a, args, rfl⟩ := List.exists_cons_of_length_eq_add_one hlength
      obtain ⟨hfresh, hnodup⟩ := List.nodup_cons.mp h
      have hrest :
          taken.mapM (fun n' => ((n :: taken).zip (a :: args)).lookup n') =
          taken.mapM fun n' => (taken.zip args).lookup n' := by
        refine mapM_congr fun n' hn' => ?_
        have hne : (n' == n) = false :=
          beq_false_of_ne fun he => hfresh (he ▸ hn')
        rw [List.zip_cons_cons, List.lookup_cons, hne]
      rw [List.mapM_cons, hrest, ih hnodup (Nat.succ.inj hlength),
        List.zip_cons_cons, List.lookup_cons_self]
      rfl

theorem forwards_iff {names : List String} (hfree : ∀ n ∈ names, n ∉ reserved) :
    (∀ args, args.length = names.length →
      forwards names names args = some args) ↔ names.Nodup := by
  constructor
  · intro hall
    have hsent := hall (List.replicate names.length .null) List.length_replicate
    unfold forwards at hsent
    split at hsent
    · next hnames => exact hnames.1
    · cases hsent
  · intro hnodup args hlength
    rw [forwards, if_pos ⟨hnodup, hfree⟩, mapM_lookup_zip hnodup hlength]

/-! ## What the files say -/

namespace BoundMethod

/-- The names that the parameters of a method have in its declaration. -/
def paramNames (m : BoundMethod) : List String := m.params.map (·.name)

/-- The names that the parameters of a method have in a script. -/
def argumentNames (m : BoundMethod) : List String := m.paramNames.map paramName

variable (m : BoundMethod)

theorem argumentNames_eq :
    m.argumentNames = m.params.map (paramName ·.name) := by
  rw [argumentNames, paramNames, List.map_map]
  rfl

theorem argumentNames_free : ∀ n ∈ m.argumentNames, n ∉ reserved := by
  intro n hn
  obtain ⟨n', -, rfl⟩ := List.mem_map.mp hn
  exact paramName_free n'

theorem argumentNames_words
    (h : ∀ n ∈ m.paramNames, Text.isIdentifier n = true) :
    ∀ n ∈ m.argumentNames, Text.IsWord n := by
  intro n hn
  obtain ⟨n', hn', rfl⟩ := List.mem_map.mp hn
  exact (Text.isWord_of_isIdentifier (h n' hn')).paramName

/-- The first line of a method's stub. -/
def head : String :=
  "\t" ++ m.name ++ "(" ++ ", ".intercalate m.argumentNames ++ ") \x7b"

/-- The line of a method's stub that calls across the bridge. -/
def call : String :=
  "\t\treturn window.backend.call(\"" ++ m.qualifiedName ++ "\", [" ++
    ", ".intercalate m.argumentNames ++ "]);"

theorem methodLines_eq :
    methodLines m = blockLines m.comments ++ [m.head, m.call, "\t\x7d,"] := by
  unfold head call methodLines blockLines
  rw [argumentNames_eq]

variable (hwords : ∀ n ∈ m.argumentNames, Text.IsWord n)

include hwords

theorem listed_head : listed '(' ')' m.head = m.argumentNames := by
  have hline : m.head.toList = ("\t" ++ m.name).toList ++
      '(' :: ((", ".intercalate m.argumentNames).toList ++ ')' ::
        " \x7b".toList) := by
    rw [head]
    simp
  have hopening : '(' ∉ (", ".intercalate m.argumentNames).toList :=
    Text.not_mem_listing hwords (by decide) (by decide)
  have hclosing : ')' ∉ (", ".intercalate m.argumentNames).toList :=
    Text.not_mem_listing hwords (by decide) (by decide)
  rw [listed_eq hline (List.not_mem_append hopening (by decide)) hclosing,
    Text.words_listing hwords]

theorem listed_call : listed '[' ']' m.call = m.argumentNames := by
  have hline : m.call.toList =
      ("\t\treturn window.backend.call(\"" ++ m.qualifiedName ++
        "\", ").toList ++ '[' ::
        ((", ".intercalate m.argumentNames).toList ++ ']' :: ");".toList) := by
    unfold call
    rw [show "\", [" = "\", " ++ "[" from by
      decide, show "]);" = "]" ++ ");" from by decide]
    simp only [String.toList_append, List.append_assoc, List.cons_append,
      List.nil_append, show "[".toList = ['['] from rfl, show "]".toList =
      [']'] from rfl]
  have hopening : '[' ∉ (", ".intercalate m.argumentNames).toList :=
    Text.not_mem_listing hwords (by decide) (by decide)
  have hclosing : ']' ∉ (", ".intercalate m.argumentNames).toList :=
    Text.not_mem_listing hwords (by decide) (by decide)
  rw [listed_eq hline (List.not_mem_append hopening (by decide)) hclosing,
    Text.words_listing hwords]

theorem namesBefore_signature (package : String) :
    namesBefore (m.params.map (typeScript package ·.type))
      ((signature package m).toList.drop (m.name ++ "(").length) =
      some m.argumentNames := by
  have hparams : ∀ p ∈ m.params, Text.IsWord (paramName p.name) := fun p hp =>
    hwords _ (m.argumentNames_eq ▸ List.mem_map_of_mem hp)
  rw [argumentNames_eq, ← namesBefore_params package hparams
    ("): Promise<" ++ resultType package m.result ++ ">;").toList]
  refine congrArg _ ?_
  rw [signature]
  simp only [String.append_assoc]
  rw [← String.append_assoc, String.toList_append, ← String.length_toList,
    List.drop_left, String.toList_append]

end BoundMethod

open BoundMethod

/-- The head of a method's stub, its call and the signature have the same names
for the parameters, each the parameter's own or that with an underscore, and no
reserved word. They differ, and the stub hands on what it is given, exactly if
no parameter is called like a reserved one is renamed to. -/
theorem parameters_forwarded_iff (package : String) {m : BoundMethod}
    (hnames : ∀ n ∈ m.paramNames, Text.isIdentifier n = true)
    (hdistinct : m.paramNames.Nodup) :
    ∃ head call, methodLines m = blockLines m.comments ++
    [head, call, "\t\x7d,"] ∧
      listed '(' ')' head = m.argumentNames ∧
      listed '[' ']' call = m.argumentNames ∧
      namesBefore (m.params.map (typeScript package ·.type))
        ((signature package m).toList.drop (m.name ++ "(").length) =
        some m.argumentNames ∧
      (∀ n ∈ m.argumentNames, n ∉ reserved) ∧
      (m.argumentNames.Nodup ↔ Unclashing m.paramNames) ∧
      ((∀ args, args.length = m.params.length →
          forwards (listed '(' ')' head) (listed '[' ']' call)
            args = some args) ↔
        Unclashing m.paramNames) := by
  have hwords := m.argumentNames_words hnames
  have hfree := m.argumentNames_free
  have hnodup := nodup_paramName_iff hdistinct
  have hlength : m.argumentNames.length = m.params.length := by
    rw [argumentNames, paramNames, List.length_map, List.length_map]
  refine ⟨_, _, methodLines_eq m, listed_head m hwords, listed_call m hwords,
    m.namesBefore_signature hwords package, hfree, hnodup, ?_⟩
  rw [listed_head m hwords, listed_call m hwords, ← hnodup, ← hlength]
  exact forwards_iff hfree

namespace Sample

def textParam (n : String) : MethodParam := ⟨n, .primitive .string⟩

/-- A method whose parameters have some names. -/
def renameWith (params : List String) : BoundMethod :=
  ⟨"main", "Files", "rename", params.map textParam, some (.primitive .boolean),
    [], false⟩

/-- Two parameters that are words of the script, and one that is not. -/
theorem renamed_forwarded :
    (∀ n ∈ (renameWith ["new", "default", "kind"]).paramNames,
      Text.isIdentifier n = true) ∧
    (renameWith ["new", "default", "kind"]).paramNames.Nodup ∧
    ∃ head call, methodLines (renameWith ["new", "default", "kind"]) =
        blockLines [] ++ [head, call, "\t\x7d,"] ∧
      ∀ args, args.length = 3 →
        forwards (listed '(' ')' head) (listed '[' ']' call) args =
        some args := by
  have hnames : ∀ n ∈ (renameWith ["new", "default", "kind"]).paramNames,
      Text.isIdentifier n = true := by decide
  have hdistinct :
      (renameWith ["new", "default", "kind"]).paramNames.Nodup := by decide
  obtain ⟨head, call, hlines, -, -, -, -, -, hforwards⟩ :=
    parameters_forwarded_iff "main" hnames hdistinct
  exact ⟨hnames, hdistinct, head, call, hlines, hforwards.mpr (by decide)⟩

/-- With a parameter that is called like a reserved one is renamed to, the stub
has one name twice. -/
theorem renamed_twice :
    (∀ n ∈ (renameWith ["new", "new_"]).paramNames,
      Text.isIdentifier n = true) ∧
    (renameWith ["new", "new_"]).paramNames.Nodup ∧
    ∃ head call, methodLines (renameWith ["new", "new_"]) =
        blockLines [] ++ [head, call, "\t\x7d,"] ∧
      ¬(listed '(' ')' head).Nodup ∧
      ¬∀ args, args.length = 2 →
        forwards (listed '(' ')' head) (listed '[' ']' call) args =
        some args := by
  refine ⟨by decide, by decide, (renameWith ["new", "new_"]).head,
    (renameWith ["new", "new_"]).call, methodLines_eq _, by decide, fun h => ?_⟩
  have hrefused : forwards (listed '(' ')' (renameWith ["new", "new_"]).head)
      (listed '[' ']' (renameWith ["new", "new_"]).call)
      [.null, .null] = none := if_neg (by decide)
  rw [h _ rfl] at hrefused
  cases hrefused

end Sample

end BridgeBindings
