import BridgeBindings.Proofs.Reexports

/-!
# Where relative imports lead

The name of a module is made from the way to its file, and what a
relative import means is made from the name of the module that it stands
in. Both come to the same module wherever the file stands, however far up
the import goes: for a file within directories, for a package's own file,
and for a file directly in the root directory.

The one exception is the root directory's own file. Its module has the name that
the configuration gives, which is no part of the names of the other modules, but
the import takes it for one.
-/

namespace BridgeBindings

namespace Text

variable {s : String}

theorem exists_first (h : s ≠ "") : ∃ c cs, s.toList = c :: cs :=
  List.exists_cons_of_ne_nil fun he => h (String.toList_eq_nil_iff.mp he)

theorem whole_of_isIdentifier (h : isIdentifier s = true) : '/' ∉ s.toList :=
  not_mem_of_isIdentifier h (by decide) (by decide)

theorem undashed_of_isIdentifier (h : isIdentifier s = true) : '-' ∉ s.toList :=
  not_mem_of_isIdentifier h (by decide) (by decide)

end Text

/-! ## Joined names -/

theorem dotJoin_singleton (n : String) : dotJoin [n] = n :=
  String.intercalate_singleton

theorem dotJoin_append {as bs : List String} (has : as ≠ []) (hbs : bs ≠ []) :
    dotJoin (as ++ bs) = dotJoin as ++ "." ++ dotJoin bs := by
  obtain ⟨b, bs, rfl⟩ := List.exists_cons_of_ne_nil hbs
  induction as with
  | nil => exact absurd rfl has
  | cons a as ih =>
      cases as with
      | nil =>
          rw [List.singleton_append, dotJoin, String.intercalate_cons_cons,
            dotJoin_singleton]
          rfl
      | cons a' as =>
          have ih := ih (List.cons_ne_nil a' as)
          unfold dotJoin at ih ⊢
          rw [List.cons_append, List.cons_append,
            String.intercalate_cons_cons, ← List.cons_append, ih,
            String.intercalate_cons_cons]
          simp only [String.append_assoc]

theorem dotted_ne (module name : String) : module ++ "." ++ name ≠ name := by
  intro h
  have hlength := congrArg (fun s => s.toList.length) h
  simp at hlength
  omega

/-- Names that are joined already may be joined to others by one. -/
theorem dotJoin_append_joined (as : List String) {bs : List String}
    (hbs : bs ≠ []) : dotJoin (as ++ [dotJoin bs]) = dotJoin (as ++ bs) := by
  cases as with
  | nil => exact dotJoin_singleton _
  | cons a as =>
      rw [dotJoin_append (List.cons_ne_nil a as) (List.cons_ne_nil _ _),
        dotJoin_singleton, dotJoin_append (List.cons_ne_nil a as) hbs]

theorem split_dotJoin_undotted {names : List String} (hne : names ≠ [])
    (h : ∀ n ∈ names, '.' ∉ n.toList) :
    Text.split '.' (dotJoin names) = names := by
  have hparts : names.flatMap (Text.split '.') = names.flatMap fun n => [n] :=
    List.flatMap_congr fun n hn => split_of_undotted (h n hn)
  rw [split_dotJoin hne, hparts, List.flatMap_singleton']

theorem dotJoin_ne_empty {names : List String} (hne : names ≠ [])
    (h : ∀ n ∈ names, n ≠ "") : dotJoin names ≠ "" := by
  obtain ⟨n, rest, rfl⟩ := List.exists_cons_of_ne_nil hne
  exact dotJoin_cons_ne_empty (h n List.mem_cons_self) rest

theorem dashesToUnderscores_of_undashed {s : String} (h : '-' ∉ s.toList) :
    dashesToUnderscores s = s := by
  have hsame : s.toList.map (fun c => if c = '-' then '_' else c) =
      s.toList.map id := by
    refine List.map_congr_left fun c hc => if_neg ?_
    rintro rfl
    exact h hc
  unfold dashesToUnderscores
  rw [hsame, List.map_id, String.ofList_toList]

theorem dotJoin_undashed {names : List String}
    (h : ∀ n ∈ names, '-' ∉ n.toList) : '-' ∉ (dotJoin names).toList := by
  induction names with
  | nil => exact List.not_mem_nil
  | cons n names ih =>
      have hn := h n List.mem_cons_self
      cases names with
      | nil => rwa [dotJoin_singleton]
      | cons m names =>
          have hrest := ih fun k hk => h k (List.mem_cons_of_mem n hk)
          rw [show n :: m :: names = [n] ++ (m :: names) from rfl,
            dotJoin_append (List.cons_ne_nil _ _) (List.cons_ne_nil _ _),
            dotJoin_singleton]
          simp [hn, hrest]

/-! ## The way to a file -/

namespace Path

/-- The path of a source file within directories below the root directory. -/
def file (root : String) (dirs : List String) (name : String) : String :=
  join root (ofParts (dirs ++ [name ++ ".py"]))

/-- A name that leads down into a directory. -/
structure Inner (name : String) : Prop extends Plain name where
  ne_up : name ≠ ".."

variable {way : List String}

theorem steps_ofParts (hne : way ≠ []) (h : ∀ n ∈ way, Inner n) :
    steps (ofParts way) = way := by
  unfold steps
  rw [parts_ofParts hne fun n hn => (h n hn).whole, List.filter_eq_self]
  intro n hn
  simp [(h n hn).ne_empty, (h n hn).ne_dot]

theorem foldl_push_inner (h : ∀ n ∈ way, Inner n) (stack : List String) :
    way.foldl (push true) stack = way.reverse ++ stack := by
  induction way generalizing stack with
  | nil => rfl
  | cons n way ih =>
      have hn := h n List.mem_cons_self
      have hpush : push true stack n = n :: stack := by
        simp [push, hn.ne_empty, hn.ne_dot, hn.ne_up]
      rw [List.foldl_cons, hpush, ih fun m hm =>
        h m (List.mem_cons_of_mem n hm)]
      simp

theorem isAbsolute_ofParts (hne : way ≠ []) (h : ∀ n ∈ way, Inner n) :
    isAbsolute (ofParts way) = false := by
  obtain ⟨n, rest, rfl⟩ := List.exists_cons_of_ne_nil hne
  have hn := h n List.mem_cons_self
  obtain ⟨c, cs, hchars⟩ := Text.exists_first hn.ne_empty
  have hc : c ≠ '/' :=
    fun he => hn.whole (by rw [hchars, he]; exact List.mem_cons_self)
  have hfirst : (ofParts (n :: rest)).toList.head? = some c := by
    unfold ofParts
    cases rest with
    | nil => rw [String.intercalate_singleton, hchars]; rfl
    | cons m rest => rw [String.intercalate_cons_cons]; simp [hchars]
  unfold isAbsolute
  rw [hfirst]
  simpa using hc

theorem names_join (root : String) (hne : way ≠ []) (h : ∀ n ∈ way, Inner n) :
    names (join root (ofParts way)) = names root ++ way := by
  rw [names_eq, names_eq, steps_join (isAbsolute_ofParts hne h),
    steps_ofParts hne h, List.foldl_append, foldl_push_inner h,
    List.reverse_append, List.reverse_reverse]

theorem dropShared_append (names way : List String) :
    dropShared names (names ++ way) = ([], way) := by
  induction names with
  | nil => cases way <;> rfl
  | cons n names ih => rw [List.cons_append, dropShared, if_pos rfl, ih]

/-- The way from a directory to what stands below it. -/
theorem relative_join (root : String) (hne : way ≠ [])
    (h : ∀ n ∈ way, Inner n) : relative (join root (ofParts way)) root =
    ofParts way := by
  unfold relative
  rw [names_join root hne h, dropShared_append]
  obtain ⟨n, rest, rfl⟩ := List.exists_cons_of_ne_nil hne
  rfl

/-- What stands in a path before its last name. -/
def front (dirs : List String) : String :=
  dirs.foldr (fun d rest => d ++ "/" ++ rest) ""

theorem ofParts_snoc (dirs : List String) (name : String) :
    ofParts (dirs ++ [name]) = front dirs ++ name := by
  induction dirs with
  | nil => exact String.intercalate_singleton.trans String.empty_append.symm
  | cons d dirs ih =>
      have hfront : front (d :: dirs) = d ++ "/" ++ front dirs := rfl
      unfold ofParts at ih ⊢
      rw [List.cons_append, String.intercalate_cons_of_ne_nil (by simp),
        ih, hfront]
      simp only [String.append_assoc]

theorem front_cases (dirs : List String) :
    front dirs = "" ∨ ∃ cs, (front dirs).toList = cs ++ ['/'] := by
  induction dirs with
  | nil => exact .inl rfl
  | cons d dirs ih =>
      have hfront : (front (d :: dirs)).toList = d.toList ++ '/' ::
          (front dirs).toList := by
        show (d ++ "/" ++ front dirs).toList = _
        simp
      rcases ih with hnone | ⟨cs, hcs⟩
      · exact .inr ⟨d.toList, by rw [hfront, hnone]; rfl⟩
      · exact .inr ⟨d.toList ++ '/' :: cs, by rw [hfront, hcs]; simp⟩

/-- What stands behind the last divider of a path is its last name. -/
theorem takeWhile_snoc (dirs : List String) {name : String}
    (h : '/' ∉ name.toList) :
    (front dirs ++ name).toList.reverse.takeWhile (· ≠ '/') =
    name.toList.reverse := by
  have hfront : (front dirs).toList.reverse.takeWhile (· ≠ '/') = [] := by
    rcases front_cases dirs with hnone | ⟨cs, hcs⟩
    · rw [hnone]
      rfl
    · rw [hcs]
      simp
  have hname : ∀ c ∈ name.toList.reverse, decide (c ≠ '/') = true := by
    intro c hc
    rw [decide_eq_true_eq]
    rintro rfl
    exact h (List.mem_reverse.mp hc)
  rw [String.toList_append, List.reverse_append,
    List.takeWhile_append_of_pos hname, hfront, List.append_nil]

/-- A name without dots keeps all of itself. -/
theorem withoutExtension_snoc (dirs : List String) {name : String}
    (hne : name ≠ "") (hdot : '.' ∉ name.toList) (hslash : '/' ∉ name.toList) :
    withoutExtension (ofParts (dirs ++ [name ++ ".py"])) =
    ofParts (dirs ++ [name]) := by
  have hback : (name ++ ".py").toList.reverse = 'y' :: 'p' :: '.' ::
      name.toList.reverse := by simp
  have hwhole : (front dirs ++ (name ++ ".py")).toList.reverse =
      'y' :: 'p' :: '.' :: (front dirs ++ name).toList.reverse := by simp
  have hstem : name.toList.reverse.any (· ≠ '.') = true := by
    obtain ⟨c, cs, hchars⟩ := Text.exists_first hne
    refine List.any_eq_true.mpr ⟨c, by simp [hchars], ?_⟩
    rw [decide_eq_true_eq]
    rintro rfl
    exact hdot (by simp [hchars])
  rw [ofParts_snoc, ofParts_snoc]
  unfold withoutExtension
  dsimp only
  rw [takeWhile_snoc dirs (by simp [hslash]), hback, hwhole]
  show (if name.toList.reverse.any (· ≠ '.') then
    String.ofList (front dirs ++ name).toList.reverse.reverse else _) = _
  rw [if_pos hstem, List.reverse_reverse, String.ofList_toList]

theorem parts_join (directory path : String) (h : isAbsolute path = false) :
    ∃ before, parts (join directory path) = before ++ parts path := by
  obtain ⟨-, hjoin⟩ | ⟨front, -, hjoin⟩ := join_cases h directory
  · exact ⟨[], congrArg parts hjoin⟩
  · rw [hjoin]
    exact ⟨_, parts_append front path⟩

end Path

/-! ## Modules and their places -/

/-- A name that modules and packages are imported by. -/
def Importable (name : String) : Prop :=
  Text.isIdentifier name = true ∧ name ≠ "__init__"

instance (name : String) : Decidable (Importable name) :=
  inferInstanceAs (Decidable (_ ∧ _))

/-- The way to what a file stands for: the file, or its directory if the file is
a package's own. -/
def modulePlace (dirs : List String) (file : String) : List String :=
  if file = "__init__" then dirs else dirs ++ [file]

/-- The name of the module at a place. -/
def moduleAt (rootPackage : String) (place : List String) : String :=
  if place = [] then rootPackage else dotJoin place

section Places

variable {dirs : List String} {name : String}

theorem inner_of_isIdentifier (h : Text.isIdentifier name = true) :
    Path.Inner name := by
  refine ⟨⟨Text.ne_empty_of_isIdentifier h, ?_, Text.whole_of_isIdentifier h⟩,
    ?_⟩
  all_goals
    rintro rfl
    exact absurd h (by decide)

theorem inner_sourceName (h : Text.isIdentifier name = true) :
    Path.Inner (name ++ ".py") := by
  have hlast : (name ++ ".py").toList.getLast? = some 'y' := by simp
  refine ⟨⟨fun he => ?_, fun he => ?_, ?_⟩, fun he => ?_⟩
  · rw [he] at hlast
    cases hlast
  · rw [he] at hlast
    exact absurd hlast (by decide)
  · simp [Text.whole_of_isIdentifier h]
  · rw [he] at hlast
    exact absurd hlast (by decide)

variable (hdirs : ∀ d ∈ dirs, Importable d)
    (hname : Text.isIdentifier name = true)

include hdirs hname

theorem inner_way : ∀ n ∈ dirs ++ [name ++ ".py"], Path.Inner n := by
  intro n hn
  rcases List.mem_append.mp hn with hn | hn
  · exact inner_of_isIdentifier (hdirs n hn).1
  · exact List.mem_singleton.mp hn ▸ inner_sourceName hname

theorem mem_modulePlace :
    ∀ n ∈ modulePlace dirs name, Text.isIdentifier n = true := by
  intro n hn
  unfold modulePlace at hn
  split at hn
  · exact (hdirs n hn).1
  · rcases List.mem_append.mp hn with hn | hn
    · exact (hdirs n hn).1
    · exact List.mem_singleton.mp hn ▸ hname

/-- A file's module is named by its place. -/
theorem moduleName_file (root rootPackage : String) :
    moduleName root (Path.file root dirs name) rootPackage =
      moduleAt rootPackage (modulePlace dirs name) := by
  have hparts :
      Path.parts (Path.withoutExtension
        (Path.relative (Path.file root dirs name) root)) =
      dirs ++ [name] := by
    rw [Path.file, Path.relative_join root (by simp) (inner_way hdirs hname),
      Path.withoutExtension_snoc dirs (Text.ne_empty_of_isIdentifier hname)
        (Text.undotted_of_isIdentifier hname)
        (Text.whole_of_isIdentifier hname)]
    refine Path.parts_ofParts (by simp) fun n hn => ?_
    rcases List.mem_append.mp hn with hn | hn
    · exact Text.whole_of_isIdentifier (hdirs n hn).1
    · exact List.mem_singleton.mp hn ▸ Text.whole_of_isIdentifier hname
  have hfilter : (dirs ++ [name]).filter (· ≠ "__init__") =
      modulePlace dirs name := by
    have hall : dirs.filter (· ≠ "__init__") = dirs := by
      rw [List.filter_eq_self]
      exact fun d hd => decide_eq_true (hdirs d hd).2
    rw [List.filter_append, hall]
    unfold modulePlace
    split
    · next h => simp [h]
    · next h => simp [h]
  have hplace := mem_modulePlace hdirs hname
  have hdashes : dashesToUnderscores (dotJoin (modulePlace dirs name)) =
      dotJoin (modulePlace dirs name) :=
    dashesToUnderscores_of_undashed
      (dotJoin_undashed fun n hn => Text.undashed_of_isIdentifier (hplace n hn))
  unfold moduleName moduleAt
  dsimp only
  rw [hparts, hfilter, hdashes]
  by_cases hempty : modulePlace dirs name = []
  · rw [hempty, if_pos rfl]
    rfl
  · have hne := dotJoin_ne_empty hempty fun n hn =>
      Text.ne_empty_of_isIdentifier (hplace n hn)
    rw [if_neg hempty, if_neg (by simpa using hne)]

theorem baseName_file (root : String) :
    Path.baseName (Path.file root dirs name) = name ++ ".py" := by
  have hway := inner_way hdirs hname
  obtain ⟨before, hbefore⟩ :=
    Path.parts_join root _ (Path.isAbsolute_ofParts (by simp) hway)
  unfold Path.baseName Path.file
  rw [hbefore, Path.parts_ofParts (by simp) fun n hn =>
    (hway n hn).whole, ← List.append_assoc]
  simp

/-- A file is a package's own exactly if it is called so. -/
theorem isInit_file (root : String) :
    decide (Path.baseName (Path.file root dirs name) = "__init__.py") =
    decide (name = "__init__") := by
  rw [baseName_file hdirs hname, show "__init__.py" = "__init__" ++
    ".py" from rfl]
  exact decide_eq_decide.mpr (String.append_left_inj ".py")

end Places

/-! ## Relative imports -/

/-- How names are written one below the other; none at all is
nothing written. -/
def written? (names : List String) : Option String :=
  if names = [] then none else some (dotJoin names)

/-- What a relative import that goes up so many levels finds first in its
file's directory. -/
def above (dirs : List String) (level : Nat) : List String :=
  dirs.take (dirs.length + 1 - level)

theorem resolveRelative_eq {module : String} {parts : List String}
    (hparts : (if module.isEmpty then [] else Text.split '.' module) = parts)
    {isPackage : Bool} {level : Nat} (hlevel : 1 ≤ level) {names : List String}
    (hnames : ∀ n ∈ names, n ≠ "") :
    resolveRelative module isPackage level (written? names) =
      dotJoin (above (if isPackage then parts else parts.dropLast)
        level ++ names) := by
  have hcount (parts : List String) : parts.length - (level - 1) =
      parts.length + 1 - level := by omega
  have hjoined (parts : List String) :
      dotJoin (if ((written? names).getD "").isEmpty then parts
      else parts ++ [(written? names).getD ""]) = dotJoin (parts ++ names) := by
    unfold written?
    by_cases hnone : names = []
    · rw [if_pos hnone, hnone, List.append_nil]
      rfl
    · rw [if_neg hnone, Option.getD_some,
        if_neg (by simpa using dotJoin_ne_empty hnone hnames)]
      exact dotJoin_append_joined parts hnone
  unfold resolveRelative above
  dsimp only
  rw [if_neg (by omega), hparts, hjoined, hcount]

section Resolving

variable {rootPackage : String} {dirs : List String}
  {name : String} {level : Nat} {names : List String} (hroot : rootPackage ≠ "")

include hroot in
/-- In the root directory's own file the names are taken to be below the
root package. -/
theorem resolveRelative_own (hnames : ∀ n ∈ names, n ≠ "") :
    resolveRelative (moduleAt rootPackage (modulePlace [] "__init__")) true 1
      (written? names) = dotJoin (Text.split '.' rootPackage ++ names) := by
  have hmodule : moduleAt rootPackage (modulePlace [] "__init__") =
      rootPackage := rfl
  have habove : above (Text.split '.' rootPackage) 1 =
      Text.split '.' rootPackage := by
    rw [above, Nat.add_sub_cancel, List.take_length]
  rw [hmodule, resolveRelative_eq (if_neg (by simpa using hroot))
    (Nat.le_refl 1) hnames, if_pos rfl, habove]

/-- A root package without a name puts nothing in front. -/
theorem resolveRelative_unnamed (hnames : ∀ n ∈ names, n ≠ "") :
    resolveRelative (moduleAt "" (modulePlace [] "__init__")) true 1
      (written? names) = dotJoin (above [] 1 ++ names) :=
  resolveRelative_eq rfl (Nat.le_refl 1) hnames

/-- In any other file the names are those below the directory that the import
goes up to. -/
theorem resolveRelative_place (hdirs : ∀ d ∈ dirs, Importable d)
    (hname : Text.isIdentifier name = true)
    (hinner : ¬(dirs = [] ∧ name = "__init__")) (hlevel : 1 ≤ level)
    (hnames : ∀ n ∈ names, n ≠ "") :
    resolveRelative (moduleAt rootPackage (modulePlace dirs name))
      (name = "__init__") level (written? names) =
      dotJoin (above dirs level ++ names) := by
  have hplace := mem_modulePlace hdirs hname
  have hne : modulePlace dirs name ≠ [] := by
    unfold modulePlace
    split
    · next h => exact fun hnone => hinner ⟨hnone, h⟩
    · simp
  have hsplit : Text.split '.' (dotJoin (modulePlace dirs name)) =
      modulePlace dirs name :=
    split_dotJoin_undotted hne fun n hn =>
      Text.undotted_of_isIdentifier (hplace n hn)
  have hpackage : (if decide (name = "__init__") = true then
      modulePlace dirs name else (modulePlace dirs name).dropLast) = dirs := by
    unfold modulePlace
    by_cases h : name = "__init__" <;> simp [h]
  have hnamed : dotJoin (modulePlace dirs name) ≠ "" :=
    dotJoin_ne_empty hne fun n hn => Text.ne_empty_of_isIdentifier (hplace n hn)
  rw [moduleAt, if_neg hne, resolveRelative_eq (if_neg (by simpa using hnamed))
    hlevel hnames, hsplit, hpackage]

end Resolving

/-- A relative import in a file, up so many levels, means the module of the
file that is called so in the directory that the import goes up to, exactly if
it does not stand in the root directory's own file; there it means what is
called so below the root package. Only a root package without a name would make
no difference. -/
theorem relative_import_iff (root rootPackage : String) {dirs : List String}
    {file target : String} (hdirs : ∀ d ∈ dirs, Importable d)
    (hfile : Text.isIdentifier file = true) (htarget : Importable target)
    {level : Nat} (hlevel : 1 ≤ level) (hdepth : level ≤ dirs.length + 1) :
    (resolveRelative (moduleName root (Path.file root dirs file) rootPackage)
        (Path.baseName (Path.file root dirs file) = "__init__.py") level
        (some target) =
      moduleName root
        (Path.file root (dirs.take (dirs.length + 1 - level)) target)
        rootPackage ↔ ¬(dirs = [] ∧ file = "__init__" ∧ rootPackage ≠ "")) ∧
    (dirs = [] ∧ file = "__init__" ∧ rootPackage ≠ "" →
      resolveRelative (moduleName root (Path.file root dirs file) rootPackage)
        (Path.baseName (Path.file root dirs file) = "__init__.py") level
        (some target) =
          rootPackage ++ "." ++ target) := by
  have hnames : ∀ n ∈ [target], n ≠ "" := by
    intro n hn
    rw [List.mem_singleton.mp hn]
    exact Text.ne_empty_of_isIdentifier htarget.1
  have habove : ∀ d ∈ dirs.take (dirs.length + 1 - level), Importable d := by
    intro d hd
    exact hdirs d (List.mem_of_mem_take hd)
  have hwritten : some target = written? [target] := by
    rw [written?, if_neg (List.cons_ne_nil _ _), dotJoin_singleton]
  have hkind := isInit_file hdirs hfile root
  have hmeant :
      moduleName root
        (Path.file root (dirs.take (dirs.length + 1 - level)) target)
      rootPackage = dotJoin (above dirs level ++ [target]) := by
    rw [moduleName_file habove htarget.1, modulePlace, if_neg htarget.2,
      moduleAt, if_neg (by simp)]
    rfl
  have hone : dirs = [] → level = 1 := by
    rintro rfl
    exact Nat.le_antisymm hdepth hlevel
  have hown : dirs = [] ∧ file = "__init__" ∧ rootPackage ≠ "" →
      resolveRelative (moduleName root (Path.file root dirs file) rootPackage)
        (Path.baseName (Path.file root dirs file) = "__init__.py") level
        (some target) =
          rootPackage ++ "." ++ target := by
    rintro ⟨hnone, hinit, hroot⟩
    have hresolved := resolveRelative_own hroot hnames
    rw [dotJoin_append (Text.split_ne_nil '.' rootPackage)
      (List.cons_ne_nil _ _), dotJoin_split, dotJoin_singleton] at hresolved
    rw [moduleName_file hdirs hfile, hkind, hone hnone, hnone, hinit, hwritten]
    exact hresolved
  -- in the root's own file the import keeps the root package in front, so its
  -- name has a dot, and that of a file in the root directory has none
  refine ⟨⟨fun hagree h => ?_, fun hinner => ?_⟩, hown⟩
  · rw [hown h, hmeant, h.1, above, List.take_nil, List.nil_append,
      dotJoin_singleton] at hagree
    exact dotted_ne _ _ hagree
  · rw [hmeant, moduleName_file hdirs hfile, hkind, hwritten]
    by_cases hinit : dirs = [] ∧ file = "__init__"
    · obtain ⟨hnone, hinit⟩ := hinit
      have hroot : rootPackage = "" := by
        by_contra hroot
        exact hinner ⟨hnone, hinit, hroot⟩
      rw [hone hnone, hnone, hinit, hroot]
      exact resolveRelative_unnamed hnames
    · exact resolveRelative_place hdirs hfile hinit hlevel hnames

namespace Sample

/-- A package's own file, two directories down, imports from the
root directory. -/
theorem upward_agrees : (∀ d ∈ ["shop", "orders"], Importable d) ∧
    Importable "money" ∧
    resolveRelative
      (moduleName "/srv"
        (Path.file "/srv" ["shop", "orders"] "__init__") "main")
        (Path.baseName (Path.file "/srv" ["shop", "orders"] "__init__") =
          "__init__.py") 3
        (some "money") =
      moduleName "/srv"
        (Path.file "/srv" (["shop", "orders"].take 0) "money") "main" := by
  have hdirs : ∀ d ∈ ["shop", "orders"], Importable d := by decide
  have htarget : Importable "money" := by decide
  exact ⟨hdirs, htarget,
    (relative_import_iff "/srv" "main" hdirs (by decide) htarget (by decide)
    (by decide)).1.mpr (by decide)⟩

/-- The root directory's own file imports from the file beside it, and another
module is meant. -/
theorem beside_astray : Importable "money" ∧
    resolveRelative (moduleName "/srv" (Path.file "/srv" [] "__init__") "main")
      (Path.baseName (Path.file "/srv" [] "__init__") = "__init__.py") 1
      (some "money") = "main.money" ∧
    moduleName "/srv" (Path.file "/srv" [] "money") "main" = "money" ∧
    "main.money" ≠ "money" := by
  decide +kernel

end Sample

end BridgeBindings
