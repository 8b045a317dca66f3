import DialectBridge.Config.Cascade
import DialectBridge.File.Tree
import DialectBridge.Proofs.Paths
import Mathlib.Data.List.Nodup
/-!
# Which configuration files count

`files` lists the files that a search has to give, with what is in them: those from the start upwards, up to
the first one that calls itself the root, and the user's own file. A search gives this list, or the first
error in it, and no path occurs twice (`discover_iff_files`). Who opts out of the own file still gets it where
the way up leads through the home directory (`own_found_iff_on_the_way`).
-/
namespace DialectBridge.Cascade
open DialectBridge.Path

/-- A path and what a loader gives for it. -/
abbrev Found := Text × Except Error Config

/-- Whether a file says that the directories above it are not searched. -/
def Found.isRoot (file : Found) : Bool :=
  match file.2 with
  | .ok config => config.root
  | .error _ => false

/-- A list up to the first of its elements that satisfies `p`, this one included. -/
def throughFirst {α : Type} (p : α → Bool) : List α → List α
  | [] => []
  | a :: l => if p a then [a] else a :: throughFirst p l

/-- The configuration file of a directory, if there is one. -/
def fileIn (load : Loader Id) (directory : Text) : Option Found :=
  (load (join directory Config.fileName)).map fun content => (join directory Config.fileName, content)

/-- The files in some directories, up to the first one that calls itself the root. -/
def filesIn (load : Loader Id) (directories : List Text) : List Found :=
  throughFirst Found.isRoot (directories.filterMap (fileIn load))

/-- The user's own file, unless the user has opted out or the file is there already. -/
def ownFile (load : Loader Id) (home : Text) (optedOut : Bool) (files : List Found) : Option Found :=
  if optedOut || files.any fun file => same file.1 (ownPath home) then none else fileIn load home

/-- The files that count, in order. -/
def files (load : Loader Id) (start home : Text) (optedOut : Bool) : List Found :=
  filesIn load (ancestors start) ++ (ownFile load home optedOut (filesIn load (ancestors start))).toList

def collect (files : List Found) : Except Error (List LoadedConfig) :=
  files.mapM fun file => return ⟨file.1, ← file.2⟩

def loaded (c : LoadedConfig) : Found := (c.path, .ok c.config)

variable {load : Loader Id} {start home : Text} {optedOut : Bool} {fs : List Found}
  {configs : List LoadedConfig} {e : Error}

/-! ## The first error -/

theorem collect_cons_loaded (c : LoadedConfig) (fs : List Found) :
    collect (loaded c :: fs) = (collect fs).map (c :: ·) := by
  rw [collect, List.mapM_cons, ← collect]
  cases collect fs <;> rfl

theorem collect_loaded_append (configs : List LoadedConfig) (fs : List Found) :
    collect (configs.map loaded ++ fs) = (collect fs).map (configs ++ ·) := by
  induction configs with
  | nil => cases hfs : collect fs <;> simp [hfs, Except.map]
  | cons c configs ih =>
    rw [List.map_cons, List.cons_append, collect_cons_loaded, ih]
    cases collect fs <;> rfl

theorem collect_loaded (configs : List LoadedConfig) : collect (configs.map loaded) = .ok configs := by
  have h := collect_loaded_append configs []
  rw [List.append_nil] at h
  rw [h]
  simp [collect, Except.map, pure, Except.pure]

/-- The files up to the first error, if there is one. -/
theorem exists_loaded (fs : List Found) : ∃ configs : List LoadedConfig, fs = configs.map loaded ∨
    ∃ path e after, fs = configs.map loaded ++ (path, .error e) :: after := by
  induction fs with
  | nil => exact ⟨[], .inl rfl⟩
  | cons file fs ih =>
    obtain ⟨path, content⟩ := file
    cases content with
    | error e => exact ⟨[], .inr ⟨path, e, fs, rfl⟩⟩
    | ok config =>
      obtain ⟨configs, rfl | ⟨path', e, after, rfl⟩⟩ := ih
      · exact ⟨⟨path, config⟩ :: configs, .inl rfl⟩
      · exact ⟨⟨path, config⟩ :: configs, .inr ⟨path', e, after, rfl⟩⟩

theorem collect_error (configs : List LoadedConfig) (path : Text) (e : Error) (after : List Found) :
    collect (configs.map loaded ++ (path, .error e) :: after) = .error e := by
  rw [collect_loaded_append]
  rfl

theorem collect_eq_ok_iff : collect fs = .ok configs ↔ fs = configs.map loaded := by
  constructor
  · intro h
    obtain ⟨configs', rfl | ⟨path, e, after, rfl⟩⟩ := exists_loaded fs
    · rw [collect_loaded] at h
      cases h
      rfl
    · rw [collect_error] at h
      cases h
  · rintro rfl
    exact collect_loaded configs

theorem collect_eq_error_iff : collect fs = .error e ↔
    ∃ (configs : List LoadedConfig) (path : Text) (after : List Found),
      fs = configs.map loaded ++ (path, .error e) :: after := by
  constructor
  · intro h
    obtain ⟨configs, rfl | ⟨path, e', after, rfl⟩⟩ := exists_loaded fs
    · rw [collect_loaded] at h
      cases h
    · rw [collect_error] at h
      cases h
      exact ⟨configs, path, after, rfl⟩
  · rintro ⟨configs, path, after, rfl⟩
    exact collect_error configs path e after

/-! ## What a search gives -/

theorem fileIn_eq (load : Loader Id) (d : Text) :
    fileIn load d = (load (join d Config.fileName)).map fun content => (join d Config.fileName, content) := rfl

/-- What a directory adds to what is found above it. -/
theorem result_searchUp_cons (d : Text) (above : List Text) :
    (searchUp load (d :: above)).result =
      match fileIn load d with
      | none => (searchUp load above).result
      | some (_, .error e) => .error e
      | some (path, .ok config) =>
        if config.root then .ok [⟨path, config⟩] else (searchUp load above).result.map (⟨path, config⟩ :: ·) := by
  rw [fileIn_eq]
  match hload : load (join d Config.fileName) with
  | none =>
    simp only [searchUp, bind, hload]
    rfl
  | some (.error e) =>
    simp only [searchUp, bind, pure, hload]
    rfl
  | some (.ok config) =>
    simp only [searchUp, bind, pure, hload, Option.map_some]
    split
    · rfl
    · cases (searchUp load above).result <;> rfl

theorem result_searchUp (directories : List Text) :
    (searchUp load directories).result = collect (filesIn load directories) := by
  induction directories with
  | nil => rfl
  | cons d above ih =>
    rw [filesIn] at ih
    rw [filesIn, List.filterMap_cons, result_searchUp_cons, ih]
    match hfile : fileIn load d with
    | none => rfl
    | some (path, .error e) => exact (collect_error [] path e _).symm
    | some (path, .ok config) =>
      have hcons := collect_cons_loaded ⟨path, config⟩
      rw [loaded] at hcons
      cases hroot : config.root
      · simp [throughFirst, Found.isRoot, hroot, hcons]
      · simp [throughFirst, Found.isRoot, hroot, hcons]
        rfl

theorem ownFile_loaded (configs : List LoadedConfig) : ownFile load home optedOut (configs.map loaded) =
    if optedOut || configs.any fun c => same c.path (ownPath home) then none else fileIn load home := by
  rw [ownFile, List.any_map]
  rfl

theorem result_searchOwn (configs : List LoadedConfig) :
    (searchOwn load home optedOut configs).result =
      (collect (ownFile load home optedOut (configs.map loaded)).toList).map (configs ++ ·) := by
  have hnone : (collect []).map (configs ++ ·) = .ok configs := by simp [collect, Except.map, pure, Except.pure]
  rw [ownFile_loaded]
  unfold searchOwn
  cases optedOut with
  | true => exact hnone.symm
  | false =>
    by_cases hthere : configs.any fun c => same c.path (ownPath home)
    · simp only [hthere, Bool.or_true, if_true, Option.toList_none, hnone]
      rfl
    · have hfile := fileIn_eq load home
      simp only [hthere, Bool.or_self, Bool.false_eq_true, if_false, bind, pure]
      rw [ownPath]
      match hload : load (join home Config.fileName) with
      | none =>
        rw [hload] at hfile
        rw [hfile]
        exact hnone.symm
      | some (.error e) =>
        rw [hload] at hfile
        rw [hfile]
        rfl
      | some (.ok config) =>
        rw [hload] at hfile
        rw [hfile]
        rfl

/-- A search gives the configurations in the files that count, or the first error in them. -/
theorem result_discover (load : Loader Id) (start home : Text) (optedOut : Bool) :
    (discover load start home optedOut).result = collect (files load start home optedOut) := by
  have hup : (searchUp load (ancestors start)).result = _ := result_searchUp (ancestors start)
  unfold discover
  simp only [bind, pure, files]
  match hresult : (searchUp load (ancestors start)).result with
  | .error e =>
    rw [hresult] at hup
    obtain ⟨configs, path, after, hfiles⟩ := collect_eq_error_iff.1 hup.symm
    rw [hfiles, List.append_assoc, List.cons_append, collect_error]
    exact hresult
  | .ok found =>
    rw [hresult] at hup
    rw [collect_eq_ok_iff.1 hup.symm, collect_loaded_append, ← result_searchOwn]

/-! ## No path twice -/

theorem throughFirst_sublist {α : Type} (p : α → Bool) (l : List α) : (throughFirst p l).Sublist l := by
  induction l with
  | nil => exact .slnil
  | cons a l ih =>
    rw [throughFirst]
    split
    · exact .cons_cons a (List.nil_sublist l)
    · exact .cons_cons a ih

theorem path_of_fileIn {d : Text} {file : Found} (h : fileIn load d = some file) :
    file.1 = join d Config.fileName := by
  obtain ⟨content, -, rfl⟩ := Option.map_eq_some_iff.1 h
  rfl

theorem isAbsolute_fileName : isAbsolute Config.fileName = false := by decide

theorem startsHere_fileName : startsHere Config.fileName = false := by decide

theorem same_fileName (a b : Text) : same (join a Config.fileName) (join b Config.fileName) = same a b :=
  same_join isAbsolute_fileName startsHere_fileName a b

theorem nodup_inits {α : Type} (l : List α) : l.inits.Nodup := by
  induction l with
  | nil => simp
  | cons a l ih =>
    rw [List.inits_cons, List.nodup_cons]
    exact ⟨by simp, ih.map List.cons_injective⟩

/-- The directories from an absolute path upwards are pairwise different. -/
theorem pairwise_ancestors (h : isAbsolute start = true) :
    (ancestors start).Pairwise fun a b => same a b = false := by
  obtain ⟨hnames, habsolute⟩ := names_ancestors h
  have hnodup : ((ancestors start).map names).Nodup := by
    rw [hnames]
    exact List.nodup_reverse.2 (nodup_inits _)
  rw [List.Nodup, List.pairwise_map] at hnodup
  refine hnodup.imp_of_mem fun ha hb hne => ?_
  rw [Bool.eq_false_iff, ne_eq, same_iff_of_isAbsolute (habsolute _ ha) (habsolute _ hb)]
  exact hne

theorem pairwise_files (h : isAbsolute start = true) :
    (files load start home optedOut).Pairwise fun f g => same f.1 g.1 = false := by
  rw [files, List.pairwise_append]
  refine ⟨(List.Pairwise.filterMap _ ?_ (pairwise_ancestors h)).sublist (throughFirst_sublist _ _), ?_, ?_⟩
  · intro a b hab f hf g hg
    rwa [path_of_fileIn hf, path_of_fileIn hg, same_fileName]
  · cases ownFile load home optedOut (filesIn load (ancestors start)) <;> simp
  · intro f hf g hg
    rw [Option.mem_toList, ownFile] at hg
    split at hg
    · cases hg
    · rename_i hthere
      rw [path_of_fileIn hg]
      simp only [Bool.or_eq_true, List.any_eq_true, not_or, not_exists, not_and, Bool.not_eq_true] at hthere
      exact hthere.2 f hf

/-- For every file system, absolute start, home directory and setting of the variable: the search looks at the
start and at what its names lead through, from the bottom up; it gives the configurations in the files that
count, or the error of the first of these that cannot be used; and no path occurs twice among them. -/
theorem discover_iff_files (load : Loader Id) (start home : Text) (value : Option Text)
    (h : isAbsolute start = true) :
    (ancestors start).map names = (names start).inits.reverse ∧
      (files load start home (isYes value)).Pairwise (fun f g => same f.1 g.1 = false) ∧
      (∀ configs, (discover load start home (isYes value)).result = .ok configs ↔
        files load start home (isYes value) = configs.map loaded) ∧
      (∀ e, (discover load start home (isYes value)).result = .error e ↔
        ∃ (configs : List LoadedConfig) (path : Text) (after : List Found),
          files load start home (isYes value) = configs.map loaded ++ (path, .error e) :: after) := by
  rw [result_discover]
  exact ⟨(names_ancestors h).1, pairwise_files h, fun _ => collect_eq_ok_iff, fun _ => collect_eq_error_iff⟩

/-- Below a root file and beside the home directory: the file above the root file is not read, the own file is,
and its error is the result. -/
theorem discover_iff_files_root :
    let load : Loader Id := fun path =>
      if path = "/a/b/.ora2tsql.toml".toList then some (.ok ⟨true, none, [], []⟩)
      else if path = "/a/.ora2tsql.toml".toList then some (.error (.configMalformed path))
      else if path = "/h/.ora2tsql.toml".toList then some (.error (.configUnreadable path))
      else none
    isAbsolute "/a/b/c".toList = true ∧
      (discover load "/a/b/c".toList "/h".toList (isYes none)).result =
        .error (.configUnreadable "/h/.ora2tsql.toml".toList) := by
  intro load
  have habsolute : isAbsolute "/a/b/c".toList = true := by decide
  refine ⟨habsolute, ((discover_iff_files load _ _ none habsolute).2.2.2 _).2 ?_⟩
  exact ⟨[⟨"/a/b/.ora2tsql.toml".toList, ⟨true, none, [], []⟩⟩], "/h/.ora2tsql.toml".toList, [], by decide +kernel⟩

/-! ## Opting out of the own file -/

theorem filesIn_cons (d : Text) (above : List Text) : filesIn load (d :: above) =
    match fileIn load d with
    | none => filesIn load above
    | some file => if file.isRoot then [file] else file :: filesIn load above := by
  rw [filesIn, List.filterMap_cons]
  cases fileIn load d <;> rfl

/-- A file is that of the first directory, or the search goes on and finds it above. -/
theorem mem_filesIn_cons {file : Found} {d : Text} {above : List Text} : file ∈ filesIn load (d :: above) ↔
    fileIn load d = some file ∨
      (∀ first ∈ fileIn load d, first.isRoot = false) ∧ file ∈ filesIn load above := by
  rw [filesIn_cons]
  cases fileIn load d with
  | none => simp
  | some first =>
    have hsome : some first = some file ↔ file = first := by rw [Option.some.injEq, eq_comm]
    rw [hsome]
    cases hroot : first.isRoot <;> simp [hroot]

/-- A directory is looked at if no directory below it has a file that calls itself the root. -/
theorem mem_filesIn_iff {file : Found} {directories : List Text} : file ∈ filesIn load directories ↔
    ∃ below d above, directories = below ++ d :: above ∧ fileIn load d = some file ∧
      ∀ d' ∈ below, ∀ first ∈ fileIn load d', first.isRoot = false := by
  induction directories with
  | nil => simp [filesIn, throughFirst]
  | cons d directories ih =>
    rw [mem_filesIn_cons, ih]
    constructor
    · rintro (hfile | ⟨hroot, below, d', above, rfl, hfile, hbelow⟩)
      · exact ⟨[], d, directories, rfl, hfile, by simp⟩
      · exact ⟨d :: below, d', above, rfl, hfile, List.forall_mem_cons.2 ⟨hroot, hbelow⟩⟩
    · rintro ⟨_ | ⟨b, below⟩, d', above, hcut, hfile, hbelow⟩
      · obtain ⟨rfl, rfl⟩ := List.cons.inj hcut
        exact .inl hfile
      · obtain ⟨rfl, rfl⟩ := List.cons.inj hcut
        obtain ⟨hroot, hbelow⟩ := List.forall_mem_cons.1 hbelow
        exact .inr ⟨hroot, below, d', above, rfl, hfile, hbelow⟩

/-- Who has opted out gets the own file if and only if the way up from the start comes by the home directory:
a directory with the same path is among those looked at, there is a file in it, and no file below it calls
itself the root. -/
theorem own_found_iff_on_the_way (load : Loader Id) (start home : Text) (value : Option Text)
    (configs : List LoadedConfig) (hyes : isYes value = true)
    (h : (discover load start home (isYes value)).result = .ok configs) :
    (∃ c ∈ configs, same c.path (ownPath home) = true) ↔
      ∃ below d above, ancestors start = below ++ d :: above ∧ same d home = true ∧
        (load (join d Config.fileName)).isSome = true ∧
        ∀ d' ∈ below, ∀ c, load (join d' Config.fileName) = some (.ok c) → c.root = false := by
  have hfiles : filesIn load (ancestors start) = configs.map loaded := by
    rw [result_discover, collect_eq_ok_iff] at h
    simpa [files, ownFile, hyes] using h
  have hroot : ∀ d, (∀ file ∈ fileIn load d, file.isRoot = false) ↔
      ∀ c, load (join d Config.fileName) = some (.ok c) → c.root = false := by
    intro d
    rw [fileIn_eq]
    match load (join d Config.fileName) with
    | none => simp
    | some (.error e) => exact iff_of_true (by simp [Found.isRoot]) fun c hc => by cases hc
    | some (.ok config) =>
      constructor
      · intro hroot c hc
        cases hc
        exact hroot _ rfl
      · intro hroot file hfile
        cases hfile
        exact hroot config rfl
  constructor
  · rintro ⟨c, hc, hsame⟩
    have hmem : loaded c ∈ filesIn load (ancestors start) := hfiles ▸ List.mem_map_of_mem hc
    obtain ⟨below, d, above, hcut, hfile, hbelow⟩ := mem_filesIn_iff.1 hmem
    have hpath : c.path = join d Config.fileName := path_of_fileIn hfile
    rw [hpath, ownPath, same_fileName] at hsame
    refine ⟨below, d, above, hcut, hsame, ?_, fun d' hd' => (hroot d').1 (hbelow d' hd')⟩
    rw [← Option.isSome_map, ← fileIn_eq, hfile]
    rfl
  · rintro ⟨below, d, above, hcut, hsame, hsome, hbelow⟩
    obtain ⟨content, hload⟩ := Option.isSome_iff_exists.1 hsome
    have hfile : fileIn load d = some (join d Config.fileName, content) := by rw [fileIn_eq, hload]; rfl
    have hmem := mem_filesIn_iff.2 ⟨below, d, above, hcut, hfile, fun d' hd' => (hroot d').2 (hbelow d' hd')⟩
    rw [hfiles, List.mem_map] at hmem
    obtain ⟨c, hc, hloaded⟩ := hmem
    have hpath : c.path = join d Config.fileName := congrArg Prod.fst hloaded
    exact ⟨c, hc, by rw [hpath, ownPath, same_fileName, hsame]⟩

/-- Below the home directory, with an own file that asks for nothing. -/
theorem own_found_iff_on_the_way_below :
    let load : Loader Id := fun path =>
      if path = "/h/.ora2tsql.toml".toList then some (.ok ⟨false, none, [], []⟩) else none
    isYes (some "1".toList) = true ∧
      ∃ configs, (discover load "/h/q".toList "/h".toList (isYes (some "1".toList))).result = .ok configs ∧
        ∃ c ∈ configs, same c.path (ownPath "/h".toList) = true := by
  intro load
  have hyes : isYes (some "1".toList) = true := by decide
  have hresult : (discover load "/h/q".toList "/h".toList (isYes (some "1".toList))).result =
      .ok [⟨"/h/.ora2tsql.toml".toList, ⟨false, none, [], []⟩⟩] := by
    rw [result_discover, collect_eq_ok_iff]
    decide +kernel
  refine ⟨hyes, _, hresult, (own_found_iff_on_the_way load _ _ _ _ hyes hresult).2 ?_⟩
  refine ⟨["/h/q".toList], "/h".toList, ["/".toList], by decide +kernel, by decide, by decide, ?_⟩
  intro d hd c hc
  obtain rfl := List.mem_singleton.1 hd
  have hnone : load (join "/h/q".toList Config.fileName) = none := if_neg (by decide)
  rw [hnone] at hc
  cases hc

/-! ## Searching a tree of files -/

/-- What a tree holds at a path, read as a configuration. -/
def loadFrom (current : Place) (tree : Tree) : Loader Id := fun path =>
  (loader (Tree.system current) path tree).1

variable {current : Place} {tree : Tree}

theorem bind_of_eq {α β : Type} {x : StateM Tree α} {a : α} (h : x tree = (a, tree)) (f : α → StateM Tree β) :
    (x >>= f) tree = f a tree := by
  simp only [bind, StateT.bind, h]

theorem exists_read_system (path : Text) : ∃ content, (Tree.system current).read? path tree = (content, tree) := by
  simp only [Tree.system, bind, StateT.bind, get, getThe, MonadStateOf.get, StateT.get, pure]
  rcases Tree.find? current path tree with _ | _ | t | _ | ⟨reads, takes⟩
  all_goals exact ⟨_, rfl⟩

theorem loader_system (path : Text) :
    loader (Tree.system current) path tree = (loadFrom current tree path, tree) := by
  refine Prod.ext rfl ?_
  have hpresent : (Tree.system current).present path tree = ((tree.find? current path).isSome, tree) := rfl
  obtain ⟨content, hread⟩ : ∃ content, (Tree.system current).read? path tree = (content, tree) :=
    exists_read_system path
  rw [loader, bind_of_eq hpresent]
  split
  · rw [bind_of_eq hread]
    cases content <;> rfl
  · rfl

theorem searchUp_system (directories : List Text) :
    searchUp (loader (Tree.system current)) directories tree =
      (searchUp (loadFrom current tree) directories, tree) := by
  induction directories with
  | nil => rfl
  | cons d above ih =>
    rw [searchUp, bind_of_eq (loader_system _), searchUp]
    simp only [bind]
    match loadFrom current tree (join d Config.fileName) with
    | none => exact ih
    | some (.error e) => rfl
    | some (.ok ⟨true, _, _, _⟩) => rfl
    | some (.ok ⟨false, _, _, _⟩) => exact bind_of_eq ih _

theorem searchOwn_system (home : Text) (optedOut : Bool) (found : List LoadedConfig) :
    searchOwn (loader (Tree.system current)) home optedOut found tree =
      (searchOwn (loadFrom current tree) home optedOut found, tree) := by
  cases optedOut with
  | true => rfl
  | false =>
    by_cases hthere : (found.any fun c => same c.path (ownPath home)) = true
    · simp only [searchOwn, hthere, Bool.false_eq_true, if_false, if_true]
      rfl
    · simp only [searchOwn, hthere, Bool.false_eq_true, if_false]
      rw [bind_of_eq (loader_system _)]
      simp only [bind]
      match loadFrom current tree (ownPath home) with
      | none => rfl
      | some (.error e) => rfl
      | some (.ok config) => rfl

/-- On a tree of files a search changes nothing, and it gives what the tree holds at the paths. -/
theorem discover_system (start home : Text) (optedOut : Bool) :
    discover (loader (Tree.system current)) start home optedOut tree =
      (discover (loadFrom current tree) start home optedOut, tree) := by
  rw [discover, bind_of_eq (searchUp_system _), discover]
  simp only [bind]
  match (searchUp (loadFrom current tree) (ancestors start)).result with
  | .error e => rfl
  | .ok found =>
    exact bind_of_eq (searchOwn_system home optedOut found) _

/-- In a directory below the home directory the own file is read by who has opted out of it. -/
theorem discover_opted_out_below_home :
    let tree : Tree := ⟨[(["home".toList], .directory), (["home".toList, "q".toList], .directory),
      (["home".toList, Config.fileName], .text "".toList)]⟩
    isYes (some "1".toList) = true ∧
      (discover (loader (Tree.system [])) "/home/q".toList "/home".toList (isYes (some "1".toList)) tree).1.result =
        .ok [⟨ownPath "/home".toList, ⟨false, none, [], []⟩⟩] := by
  decide +kernel

end DialectBridge.Cascade
