import ProxyPlatform.Auth.Load

/-!
# Reloading the account files

A thread looks at the directory of the account files once per period (`ReloadAuthFile`):
it lists the files, and when their names or times differ from those it recorded, it loads
them all, publishes the map and records the list. The next request takes the map that is
published.

There are two ways to fail. When the directory cannot be listed, the period is skipped. But
when a file cannot be loaded, the thread returns, and there is no period after that:

* `reloadAuthFile_of_fails`: an iteration that fails in either way publishes nothing and
  records nothing;
* `running_iff`: the thread is still in its loop as long as no files failed to load;
* `exists_loadedAuthMap`: what the thread publishes is a map the service can swap in;
* `keepsReloading_iff`: files that changed and can be loaded are published, in every
  iteration of a run, when no iteration before failed to load its files.
-/

namespace ProxyPlatform

/-- An entry of the directory. What the file system fails to tell is `none`. -/
structure DirEntry where
  path : Bytes
  isRegularFile : Option Bool
  lastWriteTime : Option ℤ

/-- The directory as one iteration sees it. -/
structure DirectoryState where
  entries : List DirEntry
  /-- The iterator fails, before the first entry or behind the last of `entries`. -/
  iteratorFails : Bool
  /-- The file under a path, as the CSV library reads it. -/
  document : Bytes → Option AuthFile

/-- The files of a listing, with their times. -/
@[ext] structure FileTable where
  fileList : List Bytes
  fileTimestampList : List ℤ
  aligned : fileTimestampList.length = fileList.length

namespace FileTable

def empty : FileTable := ⟨[], [], rfl⟩

def cons (path : Bytes) (time : ℤ) (files : FileTable) : FileTable where
  fileList := path :: files.fileList
  fileTimestampList := time :: files.fileTimestampList
  aligned := congrArg (· + 1) files.aligned

end FileTable

namespace AuthLocalService

/-- `path::filename`: what follows the last slash. -/
def filename (path : Bytes) : Bytes := (path.reverse.takeWhile (· ≠ 47)).reverse

/-- `path::extension`: the last dot of the file name and what follows it, unless the dot is the
    first character. -/
def extension (path : Bytes) : Bytes :=
  let name := filename path
  let tail := (name.reverse.takeWhile (· ≠ 46)).reverse
  if name = [46, 46] ∨ name.length ≤ tail.length + 1 then [] else 46 :: tail

/-- The list of the CSV files. It is `none` when the file system throws. -/
def listFiles (d : DirectoryState) : List DirEntry → Option FileTable
  | [] => if d.iteratorFails then none else some .empty
  | entry :: entries => match entry.isRegularFile with
    | none => none
    | some false => listFiles d entries
    | some true =>
      if (extension entry.path).map tolower ≠ [46, 99, 115, 118] then listFiles d entries
      else match entry.lastWriteTime with
        | none => none
        | some time => (listFiles d entries).map (.cons entry.path time)

/-- Whether a name or a time differs from the one recorded. -/
def needReload (files recorded : FileTable) : Bool :=
  files.fileList.length ≠ recorded.fileList.length ||
    ((files.fileList.zip files.fileTimestampList).zip
      (recorded.fileList.zip recorded.fileTimestampList)).any
        fun (file, old) => file.1 ≠ old.1 || file.2 ≠ old.2

/-- Loading the files, one after the other. -/
def loadFileList (lib : LoadLibrary) (T : AuthTimeouts) (d : DirectoryState)
    (fileList : List Bytes) (targetMap : AuthLocalMap) : Option AuthLocalMap :=
  fileList.foldlM (fun targetMap path => (d.document path).bind (loadFile lib T targetMap)) targetMap

/-- The thread. -/
structure ReloadThread where
  /-- The thread did not return. -/
  running : Bool
  /-- `LastReloadInfo.FileList` and `LastReloadInfo.FileTimestampList`. -/
  files : FileTable
  /-- `LastReloadInfo.AuthMap`: the map published and not taken yet. -/
  authMap : Option AuthLocalMap

namespace ReloadThread

def init : ReloadThread where
  running := true
  files := .empty
  authMap := none

/-- An iteration of the loop in `ReloadAuthFile`, while the service runs. -/
def reloadAuthFile (lib : LoadLibrary) (T : AuthTimeouts) (r : ReloadThread) (d : DirectoryState) :
    ReloadThread :=
  if r.running then
    match listFiles d d.entries with
    | none => r
    | some files =>
      if needReload files r.files then
        match loadFileList lib T d files.fileList ∅ with
        -- The `catch` around the loading returns from the thread.
        | none => { r with running := false }
        | some newMap => { r with authMap := some newMap, files := files }
      else r
  else r

/-- What happens to the thread: it looks at the directory, or a request takes the map. -/
inductive ReloadEvent
  | reloadAuthFile (d : DirectoryState)
  | takeAuthMap

def step (lib : LoadLibrary) (T : AuthTimeouts) (r : ReloadThread) : ReloadEvent → ReloadThread
  | .reloadAuthFile d => reloadAuthFile lib T r d
  | .takeAuthMap => { r with authMap := none }

/-- The state after the events `es`. -/
def after (lib : LoadLibrary) (T : AuthTimeouts) (es : List ReloadEvent) : ReloadThread :=
  es.foldl (step lib T) init

variable {lib : LoadLibrary} {T : AuthTimeouts} {r : ReloadThread} {d : DirectoryState}
  {es : List ReloadEvent}

theorem after_concat (lib : LoadLibrary) (T : AuthTimeouts) (es : List ReloadEvent)
    (e : ReloadEvent) : after lib T (es ++ [e]) = step lib T (after lib T es) e := by
  rw [after, List.foldl_append]
  rfl

/-! ## What an iteration does -/

/-- The files listed differ from those recorded. -/
def Changes (r : ReloadThread) (d : DirectoryState) (files : FileTable) : Prop :=
  listFiles d d.entries = some files ∧ files ≠ r.files

/-- The files changed, and one of them cannot be loaded. -/
def ParsingFails (lib : LoadLibrary) (T : AuthTimeouts) (r : ReloadThread) (d : DirectoryState) :
    Prop :=
  ∃ files, Changes r d files ∧ loadFileList lib T d files.fileList ∅ = none

/-- The files changed, and all of them can be loaded, into the map `newMap`. -/
def Parses (lib : LoadLibrary) (T : AuthTimeouts) (r : ReloadThread) (d : DirectoryState)
    (files : FileTable) (newMap : AuthLocalMap) : Prop :=
  Changes r d files ∧ ∃ documents, files.fileList.mapM d.document = some documents ∧
    loadFiles lib T documents = some newMap

/-- The comparison finds out whether the files differ from those recorded. -/
theorem needReload_iff (files recorded : FileTable) :
    needReload files recorded = true ↔ files ≠ recorded := by
  have hany {α : Type} [DecidableEq α] {l l' : List (α × ℤ)} (h : l.length = l'.length) :
      (l.zip l').any (fun (file, old) => file.1 ≠ old.1 || file.2 ≠ old.2) = false ↔ l = l' := by
    induction l generalizing l' with
    | nil => cases l' <;> simp_all
    | cons a l ih => cases l' with
      | nil => cases h
      | cons b l' =>
        rw [List.zip_cons_cons, List.any_cons, Bool.or_eq_false_iff, ih (Nat.succ.inj h),
          List.cons.injEq, Prod.ext_iff]
        simp
  rw [← not_iff_not, not_not, Bool.not_eq_true, needReload, Bool.or_eq_false_iff,
    decide_eq_false_iff_not, not_not]
  constructor
  · rintro ⟨hlength, hzip⟩
    rw [hany (by simp [files.aligned, recorded.aligned, hlength])] at hzip
    have hunzip := congrArg List.unzip hzip
    rw [List.unzip_zip files.aligned.symm, List.unzip_zip recorded.aligned.symm,
      Prod.mk.injEq] at hunzip
    exact FileTable.ext hunzip.1 hunzip.2
  · rintro rfl
    exact ⟨rfl, (hany rfl).2 rfl⟩

/-- Loading the files one after the other is loading the list of what they contain. -/
theorem loadFileList_eq (lib : LoadLibrary) (T : AuthTimeouts) (d : DirectoryState)
    (fileList : List Bytes) :
    loadFileList lib T d fileList ∅ = (fileList.mapM d.document).bind (loadFiles lib T) := by
  unfold loadFileList loadFiles
  generalize (∅ : AuthLocalMap) = m
  induction fileList generalizing m with
  | nil => rfl
  | cons path fileList ih =>
    rw [List.foldlM_cons, List.mapM_cons]
    simp only [bind, pure, Option.bind_assoc, Option.bind_some, List.foldlM_cons]
    refine Option.bind_congr fun file _ => ?_
    rw [Option.bind_comm (fileList.mapM d.document)]
    exact Option.bind_congr fun u _ => ih u

/-- An iteration that fails publishes nothing and records nothing. -/
theorem reloadAuthFile_of_fails (h : listFiles d d.entries = none ∨ ParsingFails lib T r d) :
    (reloadAuthFile lib T r d).authMap = r.authMap ∧
      (reloadAuthFile lib T r d).files = r.files := by
  rw [reloadAuthFile]
  split
  · rcases h with hlist | ⟨files, ⟨hlist, hne⟩, hload⟩
    · simp only [hlist, and_self]
    · simp only [hlist, (needReload_iff files r.files).2 hne, if_true, hload, and_self]
  · exact ⟨rfl, rfl⟩

/-- An iteration that finds files that changed and can be loaded publishes and records them. -/
theorem reloadAuthFile_of_parses {files : FileTable} {newMap : AuthLocalMap}
    (hrun : r.running = true) (h : Parses lib T r d files newMap) :
    (reloadAuthFile lib T r d).authMap = some newMap ∧
      (reloadAuthFile lib T r d).files = files := by
  obtain ⟨⟨hlist, hne⟩, documents, hdocuments, hload⟩ := h
  have hmap : loadFileList lib T d files.fileList ∅ = some newMap := by
    rw [loadFileList_eq, hdocuments, Option.bind_some, hload]
  simp only [reloadAuthFile, hrun, hlist, (needReload_iff files r.files).2 hne, if_true, hmap,
    and_self]

/-- Only an iteration whose files cannot be loaded ends the thread. -/
theorem running_reloadAuthFile :
    (reloadAuthFile lib T r d).running = true ↔
      r.running = true ∧ ¬ParsingFails lib T r d := by
  by_cases hrun : r.running = true
  · rw [and_iff_right hrun]
    simp only [reloadAuthFile, hrun, if_true]
    split
    · next hlist =>
      refine iff_of_true hrun ?_
      rintro ⟨files, ⟨hlist', -⟩, -⟩
      rw [hlist] at hlist'
      cases hlist'
    · next files hlist =>
      split
      · next hneed =>
        have hne := (needReload_iff files r.files).1 hneed
        split
        · next hload =>
          exact iff_of_false Bool.false_ne_true fun h => h ⟨files, ⟨hlist, hne⟩, hload⟩
        · next newMap hload =>
          refine iff_of_true rfl ?_
          rintro ⟨files', ⟨hlist', -⟩, hload'⟩
          rw [hlist, Option.some.injEq] at hlist'
          rw [← hlist', hload] at hload'
          cases hload'
      · next hneed =>
        refine iff_of_true hrun ?_
        rintro ⟨files', ⟨hlist', hne⟩, -⟩
        rw [hlist, Option.some.injEq] at hlist'
        exact hneed ((needReload_iff files r.files).2 (hlist' ▸ hne))
  · refine iff_of_false ?_ fun h => hrun h.1
    rwa [reloadAuthFile, if_neg hrun]

/-! ## Runs -/

/-- The thread did not return as long as no iteration failed to load its files. -/
theorem running_iff : (after lib T es).running = true ↔
    ∀ pre d, pre ++ [.reloadAuthFile d] <+: es → ¬ParsingFails lib T (after lib T pre) d := by
  induction es using List.reverseRecOn with
  | nil =>
    refine iff_of_true rfl fun pre d hpre => ?_
    exact absurd (List.prefix_nil.1 hpre) (by simp)
  | append_singleton es e ih =>
    rw [after_concat]
    cases e with
    | reloadAuthFile d =>
      rw [step, running_reloadAuthFile, ih]
      constructor
      · rintro ⟨hbefore, hnow⟩ pre d' hpre
        rcases List.prefix_concat_iff.1 hpre with heq | hpre
        · obtain ⟨rfl, he⟩ := List.append_inj' heq rfl
          cases he
          exact hnow
        · exact hbefore pre d' hpre
      · exact fun h => ⟨fun pre d' hpre => h pre d' (hpre.trans (List.prefix_append _ _)),
          h es d List.prefix_rfl⟩
    | takeAuthMap =>
      rw [step, ih]
      constructor
      · intro h pre d hpre
        rcases List.prefix_concat_iff.1 hpre with heq | hpre
        · cases (List.append_inj' heq rfl).2
        · exact h pre d hpre
      · exact fun h pre d hpre => h pre d (hpre.trans (List.prefix_append _ _))

/-- A map that is published waits until it is taken or replaced. It has no node and no block, so that
    it is one the service swaps in. -/
theorem exists_loadedAuthMap {m : AuthLocalMap} (h : (after lib T es).authMap = some m) :
    ∃ newMap : LoadedAuthMap, newMap.records = m := by
  induction es using List.reverseRecOn with
  | nil => cases h
  | append_singleton es e ih =>
    rw [after_concat] at h
    cases e with
    | takeAuthMap => cases h
    | reloadAuthFile d =>
      rw [step, reloadAuthFile] at h
      split at h
      · split at h
        · exact ih h
        next files hlist =>
        split at h
        · split at h
          · exact ih h
          · next newMap hload =>
            cases h
            rw [loadFileList_eq] at hload
            obtain ⟨documents, -, hload⟩ := Option.bind_eq_some_iff.1 hload
            exact ⟨⟨m, fresh_of_loadFiles hload⟩, rfl⟩
        · exact ih h
      · exact ih h

/-- In every iteration of the run, a failure leaves what is published and recorded, and files that
    changed and can be loaded are published and recorded. -/
structure KeepsReloading (lib : LoadLibrary) (T : AuthTimeouts) (es : List ReloadEvent) : Prop where
  unchanged : ∀ pre d, pre ++ [.reloadAuthFile d] <+: es →
    listFiles d d.entries = none ∨ ParsingFails lib T (after lib T pre) d →
    (after lib T (pre ++ [.reloadAuthFile d])).authMap = (after lib T pre).authMap ∧
      (after lib T (pre ++ [.reloadAuthFile d])).files = (after lib T pre).files
  publishes : ∀ pre d files newMap, pre ++ [.reloadAuthFile d] <+: es →
    Parses lib T (after lib T pre) d files newMap →
    (after lib T (pre ++ [.reloadAuthFile d])).authMap = some newMap ∧
      (after lib T (pre ++ [.reloadAuthFile d])).files = files

/-- A run keeps reloading exactly when, before every iteration whose files changed and can be
    loaded, no iteration failed to load the files it found. -/
theorem keepsReloading_iff (lib : LoadLibrary) (T : AuthTimeouts) (es : List ReloadEvent) :
    KeepsReloading lib T es ↔ ∀ pre d files newMap, pre ++ [.reloadAuthFile d] <+: es →
      Parses lib T (after lib T pre) d files newMap →
      ∀ pre' d', pre' ++ [.reloadAuthFile d'] <+: pre →
        ¬ParsingFails lib T (after lib T pre') d' := by
  constructor
  · intro h pre d files newMap hpre hparses
    refine running_iff.1 ?_
    have hfiles := (h.publishes pre d files newMap hpre hparses).2
    rw [after_concat, step, reloadAuthFile] at hfiles
    split at hfiles
    · next hrun => exact hrun
    · exact absurd hfiles.symm hparses.1.2
  · intro h
    refine ⟨fun pre d hpre hfails => ?_, fun pre d files newMap hpre hparses => ?_⟩
    · rw [after_concat]
      exact reloadAuthFile_of_fails hfails
    · rw [after_concat]
      exact reloadAuthFile_of_parses (running_iff.2 (h pre d files newMap hpre hparses)) hparses

/-- A directory with one CSV file, that is saved at the time `time`. -/
def sampleDirectory (time : ℤ) (document : Option AuthFile) : DirectoryState where
  entries := [⟨[97, 46, 99, 115, 118], some true, some time⟩]
  iteratorFails := false
  document _ := document

/-- A file that cannot be read is repaired: the repaired file is not published. -/
theorem keepsReloading_counterexample :
    ¬∀ (lib : LoadLibrary) (T : AuthTimeouts) (es : List ReloadEvent), KeepsReloading lib T es := by
  intro h
  let file : AuthFile := ⟨1700000000, [sampleRow [85, 83]]⟩
  obtain ⟨newMap, hmap⟩ : ∃ newMap, loadFiles sampleLibrary .release [file] = some newMap :=
    Option.isSome_iff_exists.1 (by rfl)
  have hpublished := ((h sampleLibrary .release [.reloadAuthFile (sampleDirectory 1 none),
    .reloadAuthFile (sampleDirectory 2 (some file))]).publishes
      [.reloadAuthFile (sampleDirectory 1 none)] _ ⟨[[97, 46, 99, 115, 118]], [2], rfl⟩ newMap
      List.prefix_rfl ⟨⟨rfl, fun heq => ?_⟩, [file], rfl, hmap⟩).1
  · have hnone : (after sampleLibrary .release [.reloadAuthFile (sampleDirectory 1 none),
        .reloadAuthFile (sampleDirectory 2 (some file))]).authMap = none := rfl
    exact absurd (hnone.symm.trans hpublished) (by simp)
  · exact absurd (congrArg FileTable.fileList heq) (by decide)

end ReloadThread

end AuthLocalService

end ProxyPlatform
