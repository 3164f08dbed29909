import BridgeBindings.Emit
import BridgeBindings.Proofs.Contract
import BridgeBindings.Proofs.Naming

/-!
# What a step of writing does

Two facts about each step are carried along a run: what it does to the tree
and to the log, unless the file system refuses, and that it does nothing to
a tree that has it all already. A step may also stop by itself, over a text
for which there are no bytes; then it has done what it could, and nothing
behind it is done, so a list of steps comes as far as the first that stops.
Packages have names that differ and are names within one directory, so no
file that one package gets is at a place of another's, and what was written
stays while the rest is.
-/

namespace BridgeBindings

/-! ## Steps of writing -/

/-- A step that gives this answer and these records and changes the tree like
this, unless the file system refuses. -/
def Emits {α : Type} (step : Emit α) (answer : Except Fault α) (notes : Log)
    (Q : FileTree → FileTree → Prop) : Prop :=
  ∀ w, (∃ path message w', step w = (.error (.io path message), w')) ∨
    ∃ t, step w = (answer, ⟨t, w.log ++ notes⟩) ∧ Q w.files t

/-- A step that gives this answer and these records and finds
nothing to change. -/
def Idle {α : Type} (t : FileTree) (step : Emit α) (answer : Except Fault α)
    (notes : Log) : Prop :=
  ∀ log, step ⟨t, log⟩ = (answer, ⟨t, log ++ notes⟩)

/-- The effects of steps one after the other. -/
def Through {γ : Type} (Q : γ → FileTree → FileTree → Prop) :
    List γ → FileTree → FileTree → Prop
  | [], t, t' => t = t'
  | x :: xs, t, t' => ∃ u, Q x t u ∧ Through Q xs u t'

/-- How far steps with these answers come: to the first that stops, this one
included. -/
def reached {ε γ β : Type} (answer : γ → Except ε β) : List γ → List γ
  | [] => []
  | x :: xs => x :: match answer x with
    | .ok _ => reached answer xs
    | .error _ => []

section Reaching

variable {ε γ β : Type} {answer : γ → Except ε β} {xs : List γ}

theorem reached_cons_ok {x : γ} {b : β} (h : answer x = .ok b) :
    reached answer (x :: xs) = x :: reached answer xs := by
  rw [reached, h]

theorem reached_cons_error {x : γ} {e : ε} (h : answer x = .error e) :
    reached answer (x :: xs) = [x] := by
  rw [reached, h]

theorem reached_isPrefix (answer : γ → Except ε β) (xs : List γ) :
    reached answer xs <+: xs := by
  induction xs with
  | nil => exact List.prefix_refl []
  | cons x xs ih =>
      refine List.prefix_cons_inj x |>.mpr ?_
      cases answer x with
      | ok b => exact ih
      | error e => exact List.nil_prefix

/-- Where no step stops, all are reached. -/
theorem reached_of_ok {g : γ → β} (h : ∀ x ∈ xs, answer x = .ok (g x)) :
    reached answer xs = xs ∧ xs.mapM answer = .ok (xs.map g) := by
  induction xs with
  | nil => exact ⟨rfl, rfl⟩
  | cons x xs ih =>
      obtain ⟨hreached, hmap⟩ := ih fun y hy => h y (List.mem_cons_of_mem _ hy)
      have hx := h x List.mem_cons_self
      refine ⟨by rw [reached_cons_ok hx, hreached], ?_⟩
      rw [List.mapM_cons, hx, hmap]
      rfl

/-- Behind steps that do not stop, one that stops is the last. -/
theorem reached_of_error (xs : List γ) {g : γ → β} {before : List γ}
    {x : γ} {e : ε} (h : ∀ y ∈ before, answer y = .ok (g y))
    (hx : answer x = .error e) : reached answer (before ++ x :: xs) =
    before ++ [x] ∧
      (before ++ x :: xs).mapM answer = .error e := by
  induction before with
  | nil =>
      refine ⟨reached_cons_error hx, ?_⟩
      rw [List.nil_append, List.mapM_cons, hx]
      rfl
  | cons y before ih =>
      obtain ⟨hreached, hmap⟩ := ih fun z hz => h z (List.mem_cons_of_mem _ hz)
      have hy := h y List.mem_cons_self
      rw [List.cons_append]
      refine ⟨by rw [reached_cons_ok hy, hreached]; rfl, ?_⟩
      rw [List.mapM_cons, hy, hmap]
      rfl

end Reaching

section Steps

variable {α β : Type} {step : Emit α} {f : α → Emit β} {a : α}
  {answer : Except Fault α} {next : Except Fault β} {fault : Fault}
  {notes more : Log} {Q Q' R : FileTree → FileTree → Prop} {t : FileTree}

theorem Emits.mono (h : Emits step answer notes Q)
    (hQ : ∀ t t', Q t t' → R t t') : Emits step answer notes R :=
  fun w => (h w).imp_right fun ⟨t, hrun, hq⟩ => ⟨t, hrun, hQ _ _ hq⟩

theorem Emits.pure (hQ : ∀ t, Q t t) : Emits (Pure.pure a) (.ok a) [] Q :=
  fun w => .inr ⟨w.files, by rw [List.append_nil]; rfl, hQ w.files⟩

theorem Emits.throw (hQ : ∀ t, Q t t) :
    Emits (MonadExcept.throw fault : Emit α) (.error fault) [] Q :=
  fun w => .inr ⟨w.files, by rw [List.append_nil]; rfl, hQ w.files⟩

theorem Emits.bind (h : Emits step (.ok a) notes Q)
    (h' : Emits (f a) next more Q') :
    Emits (step >>= f) next (notes ++ more) fun t t' => ∃ u,
      Q t u ∧ Q' u t' := by
  intro w
  rw [run_bind]
  rcases h w with ⟨path, message, w', hrun⟩ | ⟨u, hrun, hq⟩
  · rw [hrun]
    exact .inl ⟨path, message, w', rfl⟩
  · rw [hrun]
    rcases h' ⟨u, w.log ++ notes⟩ with ⟨path, message, w', hrun'⟩ |
      ⟨t, hrun', hq'⟩
    · exact .inl ⟨path, message, w', hrun'⟩
    · rw [List.append_assoc] at hrun'
      exact .inr ⟨t, hrun', u, hq, hq'⟩

/-- Nothing is done behind a step that stops. -/
theorem Emits.stops (h : Emits step (.error fault) notes Q) :
    Emits (step >>= f) (.error fault) notes Q := by
  intro w
  rw [run_bind]
  rcases h w with ⟨path, message, w', hrun⟩ | ⟨u, hrun, hq⟩
  · rw [hrun]
    exact .inl ⟨path, message, w', rfl⟩
  · rw [hrun]
    exact .inr ⟨u, rfl, hq⟩

theorem Emits.mapM {γ : Type} {f : γ → Emit β} {g : γ → Except Fault β}
    {records : γ → Log} {xs : List γ} {Q : γ → FileTree → FileTree → Prop}
    (h : ∀ x ∈ xs, Emits (f x) (g x) (records x) (Q x)) :
    Emits (xs.mapM f) (xs.mapM g) ((reached g xs).flatMap records)
      (Through Q (reached g xs)) := by
  induction xs with
  | nil => exact .pure fun _ => rfl
  | cons x xs ih =>
      have hfirst := h x List.mem_cons_self
      have hrest := ih fun y hy => h y (List.mem_cons_of_mem _ hy)
      rw [List.mapM_cons, List.mapM_cons]
      -- what is known at once of the first element decides whether the others
      -- have a turn
      cases hg : g x with
      | error e =>
          rw [hg] at hfirst
          rw [reached_cons_error hg, List.flatMap_singleton]
          exact hfirst.stops.mono fun t t' hq => ⟨t', hq, rfl⟩
      | ok b =>
          rw [hg] at hfirst
          have hlast : Emits (xs.mapM f >>= fun bs => Pure.pure (b :: bs))
              (xs.mapM g >>= fun bs => Pure.pure (b :: bs))
              ((reached g xs).flatMap records) (Through Q (reached g xs)) := by
            cases hgs : xs.mapM g with
            | error e =>
                rw [hgs] at hrest
                exact hrest.stops
            | ok bs =>
                rw [hgs] at hrest
                have hboth := hrest.bind (f := fun bs => Pure.pure (b :: bs))
                  (.pure fun t => (rfl : t = t))
                rw [List.append_nil] at hboth
                refine hboth.mono ?_
                rintro t _ ⟨t', ht', rfl⟩
                exact ht'
          rw [reached_cons_ok hg, List.flatMap_cons]
          exact hfirst.bind hlast

theorem Idle.pure : Idle t (Pure.pure a) (.ok a) [] := by
  intro log
  rw [List.append_nil]
  rfl

theorem Idle.bind (h : Idle t step (.ok a) notes)
    (h' : Idle t (f a) next more) :
    Idle t (step >>= f) next (notes ++ more) := by
  intro log
  rw [run_bind, h log]
  dsimp only
  rw [h' _, List.append_assoc]

theorem Idle.stops (h : Idle t step (.error fault) notes) :
    Idle t (step >>= f) (.error fault) notes := by
  intro log
  rw [run_bind, h log]

theorem Idle.mapM {γ : Type} {f : γ → Emit β} {g : γ → Except Fault β}
    {records : γ → Log} {xs : List γ}
    (h : ∀ x ∈ reached g xs, Idle t (f x) (g x) (records x)) :
    Idle t (xs.mapM f) (xs.mapM g) ((reached g xs).flatMap records) := by
  induction xs with
  | nil => exact .pure
  | cons x xs ih =>
      have hfirst := h x List.mem_cons_self
      rw [List.mapM_cons, List.mapM_cons]
      cases hg : g x with
      | error e =>
          rw [hg] at hfirst
          rw [reached_cons_error hg, List.flatMap_singleton]
          exact hfirst.stops
      | ok b =>
          rw [hg] at hfirst
          rw [reached_cons_ok hg] at h ⊢
          have hrest := ih fun y hy => h y (List.mem_cons_of_mem _ hy)
          have hlast : Idle t (xs.mapM f >>= fun bs => Pure.pure (b :: bs))
              (xs.mapM g >>= fun bs => Pure.pure (b :: bs))
              ((reached g xs).flatMap records) := by
            cases hgs : xs.mapM g with
            | error e =>
                rw [hgs] at hrest
                exact hrest.stops
            | ok bs =>
                rw [hgs] at hrest
                have hboth :=
                  hrest.bind (f := fun bs => Pure.pure (b :: bs)) .pure
                rwa [List.append_nil] at hboth
          rw [List.flatMap_cons]
          exact hfirst.bind hlast

theorem mapM_pair {γ : Type} {f : γ → Emit β} {g : γ → Except Fault β} {x y : γ}
    {w w' w'' : Workspace} (hx : f x w = (g x, w')) (hy : f y w' = (g y, w'')) :
    ∃ last, [x, y].mapM f w = ([x, y].mapM g, last) := by
  simp only [List.mapM_cons, List.mapM_nil, run_bind, hx]
  cases g x with
  | error e => exact ⟨_, rfl⟩
  | ok b =>
      simp only [hy]
      cases g y with
      | error e => exact ⟨_, rfl⟩
      | ok b' => exact ⟨_, rfl⟩

theorem run_change (change : FileTree → Except FileFault FileTree)
    (fault : FileFault → Fault) (w : Workspace) :
    Emit.change change fault w = match change w.files with
      | .ok files => (.ok (), { w with files })
      | .error f => (.error (fault f), w) := by
  unfold Emit.change
  rw [run_bind]
  show (match change w.files with
    | .ok files => modify fun w => { w with files }
    | .error f => throw (fault f) : Emit Unit) w = _
  cases change w.files <;> rfl

theorem change_emits {change : FileTree → Except FileFault FileTree}
    {path : String} {message : FileFault → String}
    (hQ : ∀ t t', change t = .ok t' → Q t t') :
    Emits (Emit.change change fun f => .io path (message f)) (.ok ()) [] Q := by
  intro w
  rw [run_change]
  cases hc : change w.files with
  | error f => exact .inl ⟨path, message f, w, rfl⟩
  | ok t =>
      rw [List.append_nil]
      exact .inr ⟨t, rfl, hQ _ _ hc⟩

theorem change_idle {change : FileTree → Except FileFault FileTree}
    {fault : FileFault → Fault} (h : change t = .ok t) :
    Idle t (Emit.change change fault) (.ok ()) [] := by
  intro log
  rw [run_change]
  dsimp only
  rw [h, List.append_nil]

end Steps

/-! ## The files of a package -/

/-- Where a file of a package is written. -/
def bindingPath (config : Config) (package : String) (f : BindingFile) :
    String :=
  Path.join (Path.join config.modulePath package) f.fileName

/-- Where the files of a package are written. -/
def bindingPaths (config : Config) (package : String) : List String :=
  BindingFile.all.map (bindingPath config package)

/-- What is logged when a file has been written. -/
def wroteRecord (path : String) : LogRecord :=
  ⟨.debug, .emitter, "Wrote " ++ path⟩

/-- The bytes that are written for a file: none if its text is torn. -/
def BindingFile.bytes (f : BindingFile) (p : Package) : List UInt8 :=
  ((f.text? p).map Text.encodeUtf8).getD []

/-- The path of a file that is written, or what stops the writer behind it. -/
def fileAnswer (config : Config) (p : Package) (f : BindingFile) :
    Except Fault String :=
  if (f.text? p).isSome then .ok (bindingPath config p.name f)
  else .error (.broken .surrogate)

/-- What is logged for a file: nothing if it is not written. -/
def fileRecords (config : Config) (p : Package) (f : BindingFile) : Log :=
  if (f.text? p).isSome then [wroteRecord (bindingPath config p.name f)] else []

/-- The files of a package that the writer comes to. -/
def filesReached (config : Config) (p : Package) : List BindingFile :=
  reached (fileAnswer config p) BindingFile.all

/-- The paths of a package's files, or what stops the writer on the way. -/
def packageAnswer (config : Config) (p : Package) :
    Except Fault (List String) :=
  BindingFile.all.mapM (fileAnswer config p)

/-- What is logged for the files of a package. -/
def packageRecords (config : Config) (p : Package) : Log :=
  (filesReached config p).flatMap (fileRecords config p)

/-- Whether one of a package's files that are written leads to a place. -/
def Leads (config : Config) (t : FileTree) (p : Package) (place : List String) :
    Prop :=
  ∃ f ∈ filesReached config p,
    t.locate (bindingPath config p.name f) = .ok place

/-- A tree in which a file of a package is as it is written. -/
def HoldsFile (config : Config) (p : Package) (t : FileTree) (f : BindingFile) :
    Prop :=
  ∃ place, t.locate (bindingPath config p.name f) = .ok place ∧
    t.root.at? place = some (.file (f.bytes p))

/-- A tree that has all that is written of a package. -/
structure Holds (config : Config) (p : Package) (t : FileTree) : Prop where
  directory : t.isDirectory (Path.join config.modulePath p.name) = true
  file : ∀ f ∈ filesReached config p, HoldsFile config p t f

section Files

variable {config : Config} {p : Package} {t t' : FileTree}
    {written : List String → Prop}

theorem plain_fileName (f : BindingFile) : Path.Plain f.fileName := by
  cases f <;> exact ⟨by decide, by decide, by decide⟩

theorem fileName_ne_up (f : BindingFile) : f.fileName ≠ ".." := by
  cases f <;> decide

theorem fileName_injective {f g : BindingFile} (h : f.fileName = g.fileName) :
    f = g := by
  cases f <;> cases g <;> first | rfl | exact absurd h (by decide)

/-- Two files at one place are the same file of one package. -/
theorem leads_injective {package package' : String} {f g : BindingFile}
    {place : List String} (hp : Path.Plain package) (hp' : Path.Plain package')
    (h : t.locate (bindingPath config package f) = .ok place)
    (h' : t.locate (bindingPath config package' g) = .ok place) :
    package = package' ∧ f = g :=
  (FileTree.locate_inner_injective hp hp' (plain_fileName f) (plain_fileName g)
    (fileName_ne_up f) (fileName_ne_up g) h h').imp_right fileName_injective

theorem Leads.grows {place : List String} (h : Leads config t p place)
    (hgrows : FileTree.Grows written t t') : Leads config t' p place :=
  h.imp fun _ hl => ⟨hl.1, hgrows.locate hl.2⟩

/-- What is written elsewhere leaves a file as it is. -/
theorem HoldsFile.grows {f : BindingFile} (h : HoldsFile config p t f)
    (hgrows : FileTree.Grows written t t')
    (hother : ∀ place, t'.locate (bindingPath config p.name f) = .ok place →
      ¬written place) :
    HoldsFile config p t' f := by
  obtain ⟨place, hl, hat⟩ := h
  have hl' := hgrows.locate hl
  refine ⟨place, hl', FileTree.fileAt?_eq_some.mp ?_⟩
  rw [hgrows.fileAt? (hother place hl'), FileTree.fileAt?_eq_some]
  exact hat

variable (htemplates : ∀ d, config.templatesDir = some d → d.isEmpty = true)

include htemplates in
theorem render_packaged (f : BindingFile) (p : Package) :
    Emit.render config.templatesDir f p = pure (f.text? p) := by
  unfold Emit.render
  cases hd : config.templatesDir with
  | none => rfl
  | some d =>
      dsimp only
      rw [if_pos (htemplates d hd)]

/-- A file of a package has been written and is there now. -/
def WritesFile (config : Config) (p : Package) (f : BindingFile)
    (t t' : FileTree) : Prop :=
  FileTree.Grows
    (fun place => t'.locate (bindingPath config p.name f) = .ok place) t t' ∧
    HoldsFile config p t' f

theorem writeBytes_emits (config : Config) (p : Package) (f : BindingFile) :
    Emits (Emit.writeBytes (bindingPath config p.name f) (f.bytes p)) (.ok ())
      [] (WritesFile config p f) := by
  refine change_emits fun t t' h => ?_
  obtain ⟨place, hl, hchange, hat⟩ :=
    FileTree.write_effect (plain_fileName f) (fileName_ne_up f) h
  refine ⟨.single (hchange.mono ?_), place, hl, hat⟩
  rintro _ rfl
  exact hl

theorem makeDirectory_emits (path : String) :
    Emits (Emit.makeDirectory path) (.ok ()) [] fun t t' =>
      FileTree.Grows (fun _ => False) t t' ∧ t'.isDirectory path = true :=
  change_emits fun _ _ => FileTree.makeDirectories_effect

/-- What is done when the bytes of a file are written: it is noted, unless the
text is torn. -/
def fileEnding (config : Config) (p : Package) (f : BindingFile) :
    Emit String :=
  if (f.text? p).isSome then do
    Emit.note (wroteRecord (bindingPath config p.name f))
    return bindingPath config p.name f
  else throw (.broken .surrogate)

theorem fileEnding_run (config : Config) (p : Package) (f : BindingFile)
    (w : Workspace) : fileEnding config p f w =
      (fileAnswer config p f, ⟨w.files, w.log ++ fileRecords config p f⟩) := by
  unfold fileEnding fileAnswer fileRecords
  cases (f.text? p).isSome with
  | true => rfl
  | false =>
      rw [if_neg Bool.false_ne_true, if_neg Bool.false_ne_true,
        if_neg Bool.false_ne_true, List.append_nil]
      rfl

include htemplates in
theorem file_eq (p : Package) (f : BindingFile) :
    Emit.file config.templatesDir (Path.join config.modulePath p.name) p f =
      Emit.writeBytes (bindingPath config p.name f) (f.bytes p) >>= fun _ =>
        fileEnding config p f := by
  unfold Emit.file fileEnding BindingFile.bytes
  rw [render_packaged htemplates]
  dsimp only
  rw [pure_bind]
  cases f.text? p with
  | some text => rfl
  | none =>
      unfold Emit.writeFile
      rw [bind_assoc]
      rfl

include htemplates in
theorem file_emits (p : Package) (f : BindingFile) :
    Emits (Emit.file config.templatesDir
      (Path.join config.modulePath p.name) p f) (fileAnswer config p f)
      (fileRecords config p f) (WritesFile config p f) := by
  have hending : Emits (fileEnding config p f) (fileAnswer config p f)
      (fileRecords config p f) (· = ·) :=
    fun w => .inr ⟨w.files, fileEnding_run config p f w, rfl⟩
  rw [file_eq htemplates]
  refine ((writeBytes_emits config p f).bind hending).mono ?_
  rintro t _ ⟨t', h, rfl⟩
  exact h

include htemplates in
theorem file_idle {f : BindingFile} (h : HoldsFile config p t f) :
    Idle t (Emit.file config.templatesDir
      (Path.join config.modulePath p.name) p f) (fileAnswer config p f)
      (fileRecords config p f) := by
  obtain ⟨place, hl, hat⟩ := h
  have hending : Idle t (fileEnding config p f) (fileAnswer config p f)
      (fileRecords config p f) := fun log => fileEnding_run config p f ⟨t, log⟩
  have hwrite :
      Idle t (Emit.writeBytes (bindingPath config p.name f) (f.bytes p))
      (.ok ()) [] := change_idle (FileTree.write_again hl hat)
  rw [file_eq htemplates]
  exact hwrite.bind hending

include htemplates in
theorem file_written {f : BindingFile} {w : Workspace} {place : List String}
    (hl : w.files.locate (bindingPath config p.name f) = .ok place)
    (hfree : ¬w.files.IsDirectoryAt place) :
    Emit.file config.templatesDir (Path.join config.modulePath p.name) p f w =
      (fileAnswer config p f,
        ⟨w.files.put place (.file (f.bytes p)),
          w.log ++ fileRecords config p f⟩) := by
  rw [file_eq htemplates, run_bind]
  unfold Emit.writeBytes
  rw [run_change, FileTree.write_eq hl hfree]
  exact fileEnding_run config p f _

/-- The files of a package leave each other alone. -/
theorem holds_of_files (hplain : Path.Plain p.name) {fs : List BindingFile}
    (hdistinct : fs.Nodup) (h : Through (WritesFile config p) fs t t') :
    FileTree.Grows
        (fun place =>
          ∃ f ∈ fs, t'.locate (bindingPath config p.name f) = .ok place) t t' ∧
      ∀ f ∈ fs, HoldsFile config p t' f := by
  induction fs generalizing t with
  | nil =>
      obtain rfl : t = t' := h
      exact ⟨.refl, fun f hf => absurd hf List.not_mem_nil⟩
  | cons f fs ih =>
      rw [List.nodup_cons] at hdistinct
      obtain ⟨u, ⟨hfirst, hf⟩, hrest⟩ := h
      obtain ⟨hlater, hfs⟩ := ih hdistinct.2 hrest
      refine ⟨(hfirst.mono fun place hl =>
        ⟨f, List.mem_cons_self, hlater.locate hl⟩).trans
        (hlater.mono
          fun place ⟨g, hg, hl⟩ => ⟨g, List.mem_cons_of_mem _ hg, hl⟩), ?_⟩
      intro g hg
      rcases List.mem_cons.mp hg with rfl | hg
      · refine hf.grows hlater ?_
        rintro place hl ⟨other, hother, hl'⟩
        have hsame := (leads_injective hplain hplain hl hl').2
        exact hdistinct.1 (hsame ▸ hother)
      · exact hfs g hg

theorem nodup_filesReached (config : Config) (p : Package) :
    (filesReached config p).Nodup := by
  have hall : BindingFile.all.Nodup := by decide
  exact hall.sublist (reached_isPrefix _ _).sublist

/-- A package's directory and files have been written and are there now. -/
def WritesPackage (config : Config) (p : Package) (t t' : FileTree) : Prop :=
  FileTree.Grows (Leads config t' p) t t' ∧ Holds config p t'

include htemplates in
theorem package_emits (hplain : Path.Plain p.name) :
    Emits (Emit.package config p) (packageAnswer config p)
      (packageRecords config p) (WritesPackage config p) := by
  have hfiles : Emits (BindingFile.all.mapM
      (Emit.file config.templatesDir (Path.join config.modulePath p.name) p))
        (packageAnswer config p) (packageRecords config p) _ :=
    Emits.mapM fun f _ => file_emits htemplates p f
  refine ((makeDirectory_emits (Path.join config.modulePath p.name)).bind
    hfiles).mono ?_
  rintro t t' ⟨u, ⟨hmade, hdir⟩, hwritten⟩
  obtain ⟨hgrows, hholds⟩ :=
    holds_of_files hplain (nodup_filesReached config p) hwritten
  exact ⟨(hmade.mono fun _ h => h.elim).trans hgrows,
    hgrows.isDirectory hdir, hholds⟩

include htemplates in
theorem package_idle (h : Holds config p t) :
    Idle t (Emit.package config p) (packageAnswer config p)
    (packageRecords config p) :=
  have hmake :
      Idle t (Emit.makeDirectory (Path.join config.modulePath p.name))
      (.ok ()) [] :=
    change_idle (FileTree.makeDirectories_again h.directory)
  hmake.bind (Idle.mapM fun f hf => file_idle htemplates (h.file f hf))

/-- The packages of a list leave each other's files alone. -/
theorem holds_of_packages {ps : List Package}
    (hplain : ∀ p ∈ ps, Path.Plain p.name) (hdistinct : (ps.map (·.name)).Nodup)
    (h : Through (WritesPackage config) ps t t') :
    FileTree.Grows (fun place => ∃ p ∈ ps, Leads config t' p place) t t' ∧
      ∀ p ∈ ps, Holds config p t' := by
  induction ps generalizing t with
  | nil =>
      obtain rfl : t = t' := h
      exact ⟨.refl, fun p hp => absurd hp List.not_mem_nil⟩
  | cons p ps ih =>
      rw [List.map_cons, List.nodup_cons] at hdistinct
      obtain ⟨u, ⟨hfirst, hp⟩, hrest⟩ := h
      obtain ⟨hlater, hps⟩ :=
        ih (fun q hq => hplain q (List.mem_cons_of_mem _ hq)) hdistinct.2 hrest
      refine ⟨(hfirst.mono fun place hl =>
        ⟨p, List.mem_cons_self, hl.grows hlater⟩).trans
        (hlater.mono
          fun place ⟨q, hq, hl⟩ => ⟨q, List.mem_cons_of_mem _ hq, hl⟩), ?_⟩
      intro q hq
      rcases List.mem_cons.mp hq with rfl | hq
      · refine ⟨hlater.isDirectory hp.directory, fun f hf =>
          (hp.file f hf).grows hlater ?_⟩
        rintro place hl ⟨other, hother, g, -, hl'⟩
        have hsame := (leads_injective (hplain q List.mem_cons_self)
          (hplain other (List.mem_cons_of_mem _ hother)) hl hl').1
        exact hdistinct.1 (hsame ▸ List.mem_map_of_mem hother)
      · exact hps q hq

end Files

end BridgeBindings
