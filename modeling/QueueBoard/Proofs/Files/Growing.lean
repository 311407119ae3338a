import Mathlib.Data.List.Induction
import QueueBoard.Files
import QueueBoard.Proofs.Text.Splitting
/-!
# Trees that grow

Making directories adds directories and nothing else (`makeDirectories_grows`), so a path that led somewhere
leads there still (`Grows.resolve_ok`). A path that led nowhere, for want of a directory, can lead to a file that
was there all along, but only if it turns back on its way (`Grows.turns_back`).
-/

namespace QueueBoard

/-- Names with slashes between them are the path that leads from one to the next, if none has a slash itself. -/
theorem FilePath.split_intercalate (names : List String) (h : ∀ name ∈ names, name ≠ "" ∧ '/' ∉ name.toList) :
    split ("/".intercalate names) = (false, names) := by
  cases names with
  | nil =>
    have hparts : "".splitOn "/" = [""] := Text.splitOn_singleton "" '/'
    have hrooted : "".startsWith "/" = false := by simp
    rw [split, String.intercalate_nil, hparts, hrooted]
    rfl
  | cons first names =>
    have hparts : ("/".intercalate (first :: names)).splitOn "/" = first :: names :=
      Text.splitOn_intercalate (fun name hname => (h name hname).2) (List.cons_ne_nil _ _)
    have hrooted : ("/".intercalate (first :: names)).startsWith "/" = false := by
      obtain ⟨hne, hslash⟩ := h first List.mem_cons_self
      obtain ⟨c, cs, hfirst⟩ := List.exists_cons_of_ne_nil (String.toList_eq_nil_iff.not.2 hne)
      obtain ⟨rest, hrest⟩ := Text.exists_intercalate_cons "/" first names
      rw [String.startsWith_string_eq_false_iff, hrest, String.toList_append, hfirst, List.cons_append]
      intro hslashed
      exact hslash (hfirst ▸ (List.cons_prefix_cons.1 hslashed).1 ▸ List.mem_cons_self)
    have hfull : (first :: names).filter (!·.isEmpty) = first :: names :=
      List.filter_eq_self.2 fun name hname => by simpa using (h name hname).1
    have hlast : ((first :: names).getLast? == some "") = false := by
      refine beq_eq_false_iff_ne.2 fun hlast => ?_
      exact (h "" (List.mem_of_getLast? hlast)).1 rfl
    rw [split, hparts, hrooted, hfull, hlast, Bool.and_false]
    rfl

namespace FileTree

variable {t t' : FileTree} {start place q : List String} {path name text : String} {names : List String}

/-! ## Ways through a tree -/

theorem isDirectory_of_step (h : t.step place name = .ok q) : t.isDirectory place = true := by
  rw [step] at h
  by_cases hplace : t.isDirectory place = true
  · exact hplace
  · rw [if_neg hplace] at h
    split at h <;> cases h

theorem step_of_isDirectory (h : t.isDirectory place = true) (h' : t'.isDirectory place = true) :
    t'.step place name = t.step place name := by
  rw [step, step, if_pos h, if_pos h']

/-- What is not a directory leads nowhere; whether it is a file shows in the error. -/
theorem step_of_not_isDirectory (h : t.isDirectory place = false) :
    t.step place name = .error (if (t.file? place).isSome then .notDirectory else .notFound) := by
  rw [step, if_neg (by simp [h])]
  split <;> rfl

/-- The place of names from another place. -/
def follow (t : FileTree) (start : List String) (names : List String) : Except FileError (List String) :=
  names.foldlM t.step start

theorem follow_cons : t.follow start (name :: names) = (t.step start name).bind (t.follow · names) := by
  rw [follow, List.foldlM_cons]
  rfl

/-- Where a path begins. -/
def origin (t : FileTree) (path : String) : List String :=
  if (FilePath.split path).1 then [] else t.workingDirectory

theorem resolve_eq (h : path.isEmpty = false) (h' : path.toList.contains '\x00' = false) :
    t.resolve path = t.follow (t.origin path) (FilePath.split path).2 := by
  rw [resolve, if_neg (by rw [h]; decide), if_neg (by rw [h']; decide)]
  rfl

/-- A path with a place follows its names. -/
theorem follow_of_resolve (h : t.resolve path = .ok place) :
    path.isEmpty = false ∧ path.toList.contains '\x00' = false ∧
      t.follow (t.origin path) (FilePath.split path).2 = .ok place := by
  have hempty : path.isEmpty = false := by
    by_contra hempty
    rw [resolve, if_pos (Bool.not_eq_false _ ▸ hempty)] at h
    cases h
  have hzero : path.toList.contains '\x00' = false := by
    by_contra hzero
    rw [resolve, if_neg (by simp [hempty]), if_pos (by simpa using hzero)] at h
    cases h
  exact ⟨hempty, hzero, by rw [← resolve_eq hempty hzero, h]⟩

section Directories

variable (hdirectory : ∀ place, t.isDirectory place = true → t'.isDirectory place = true)
include hdirectory

theorem follow_mono (h : t.follow start names = .ok place) : t'.follow start names = .ok place := by
  induction names generalizing start with
  | nil => exact h
  | cons name names ih =>
    rw [follow_cons] at h ⊢
    cases hstep : t.step start name with
    | error e =>
      rw [hstep] at h
      cases h
    | ok next =>
      have hstart := isDirectory_of_step hstep
      rw [hstep] at h
      rw [step_of_isDirectory hstart (hdirectory start hstart), hstep]
      exact ih h

theorem resolve_mono (hworking : t'.workingDirectory = t.workingDirectory) (h : t.resolve path = .ok place) :
    t'.resolve path = .ok place := by
  obtain ⟨hempty, hzero, h⟩ := follow_of_resolve h
  have horigin : t'.origin path = t.origin path := by rw [origin, origin, hworking]
  rw [resolve_eq hempty hzero, horigin]
  exact follow_mono hdirectory h

end Directories

/-! ## Writing -/

theorem file?_putFile (place q : List String) :
    (t.putFile place text).file? q = if q = place then some text else t.file? q := by
  have hfiles : ∀ files, (putFile.replace place text files).lookup q =
      if q = place then some text else files.lookup q := by
    intro files
    induction files with
    | nil =>
      by_cases hq : q = place
      · simp [putFile.replace, hq]
      · have hne : (q == place) = false := by simpa using hq
        simp [putFile.replace, List.lookup_cons, hne, hq]
    | cons file rest ih =>
      obtain ⟨p, old⟩ := file
      rw [putFile.replace]
      by_cases hp : p = place
      · rw [if_pos (by simpa using hp), hp]
        by_cases hq : q = place
        · simp [hq]
        · have hne : (q == place) = false := by simpa using hq
          simp [List.lookup_cons, hne, hq]
      · rw [if_neg (by simpa using hp)]
        by_cases hq : q = p
        · simp [hq, hp]
        · have hne : (q == p) = false := by simpa using hq
          simp [List.lookup_cons, hne, ih]
  exact hfiles t.files

/-- A file is written at the place of its path, which is no directory. -/
theorem write_ok (h : t.write path text = .ok t') :
    ∃ place, t.resolve path = .ok place ∧ t.isDirectory place = false ∧ t' = t.putFile place text := by
  rw [write] at h
  cases hresolve : t.resolve path with
  | error e =>
    rw [hresolve] at h
    cases h
  | ok place =>
    rw [hresolve] at h
    have h : (if t.isDirectory place = true then _ else _) = Except.ok t' := h
    by_cases hplace : t.isDirectory place = true
    · rw [if_pos hplace] at h
      cases h
    · rw [if_neg hplace] at h
      cases h
      exact ⟨place, rfl, by simpa using hplace, rfl⟩

/-- Whether a file can be written at a path: it leads to a place that is no directory. -/
def CanWrite (t : FileTree) (path : String) : Prop := ∃ place, t.resolve path = .ok place ∧ t.isDirectory place = false

/-- What can be written does not depend on the text. -/
theorem canWrite_iff : t.CanWrite path ↔ ∃ t', t.write path text = .ok t' := by
  constructor
  · rintro ⟨place, hresolve, hplace⟩
    refine ⟨t.putFile place text, ?_⟩
    rw [write, hresolve]
    exact if_neg (by simp [hplace])
  · rintro ⟨t', h⟩
    obtain ⟨place, hresolve, hplace, -⟩ := write_ok h
    exact ⟨place, hresolve, hplace⟩

/-- Writing changes no file but the one at the place of the path. -/
theorem write_changes (h : t.write path text = .ok t') (hchange : t'.file? place ≠ t.file? place) :
    t'.resolve path = .ok place := by
  obtain ⟨target, hresolve, -, rfl⟩ := write_ok h
  have hplace : place = target := by
    by_contra hne
    exact hchange (by rw [file?_putFile, if_neg hne])
  rw [hplace]
  exact resolve_mono (t := t) (fun _ h => h) rfl hresolve

/-- What was written is what is read. -/
theorem read_of_write (h : t.write path text = .ok t') : t'.read path = .ok text := by
  obtain ⟨place, hresolve, hplace, rfl⟩ := write_ok h
  have hresolve : (t.putFile place text).resolve path = .ok place := resolve_mono (t := t) (fun _ h => h) rfl hresolve
  have hplace : (t.putFile place text).isDirectory place = false := hplace
  have hfile : (t.putFile place text).file? place = some text := by rw [file?_putFile, if_pos rfl]
  rw [read, hresolve]
  show (if (t.putFile place text).isDirectory place = true then _ else _) = _
  rw [if_neg (by simp [hplace])]
  simp only [hfile]
  rfl

/-- The file that is found for a path is the one at the path itself, if there is one. -/
theorem locate_of_read (h : t.read path = .ok text) : t.locate path = some path := by
  have hfile : t.isFile path = true := by
    rw [isFile, h]
    rfl
  by_cases hrooted : path.startsWith "/" = true
  · rw [locate, if_pos hrooted, if_pos hfile]
  · obtain ⟨others, hfirst⟩ : ∃ others, candidates t.workingDirectory.length path = path :: others := by
      rw [candidates, List.range_succ_eq_map]
      exact ⟨_, congrArg (· :: _) String.empty_append⟩
    rw [locate, if_neg hrooted, hfirst, List.find?_cons_of_pos hfile]

/-! ## Growing -/

/-- A tree with the same files and maybe more directories, none of them where there was a file. -/
structure Grows (t t' : FileTree) : Prop where
  workingDirectory : t'.workingDirectory = t.workingDirectory
  files : t'.files = t.files
  isDirectory : ∀ place, t.isDirectory place = true → t'.isDirectory place = true
  vacant : ∀ place, t'.isDirectory place = true → t.isDirectory place = true ∨ t.file? place = none

theorem Grows.refl (t : FileTree) : t.Grows t := ⟨rfl, rfl, fun _ h => h, fun _ h => Or.inl h⟩

theorem Grows.file? (h : t.Grows t') (place : List String) : t'.file? place = t.file? place := by
  rw [FileTree.file?, FileTree.file?, h.files]

theorem Grows.trans {t'' : FileTree} (h : t.Grows t') (h' : t'.Grows t'') : t.Grows t'' where
  workingDirectory := h'.workingDirectory.trans h.workingDirectory
  files := h'.files.trans h.files
  isDirectory place hplace := h'.isDirectory place (h.isDirectory place hplace)
  vacant place hplace := by
    rcases h'.vacant place hplace with hplace | hnone
    · exact h.vacant place hplace
    · exact Or.inr (by rw [← h.file?, hnone])

/-- A directory where there is no file. -/
theorem grows_directory (h : t.file? place = none) :
    Grows t { t with directories := t.directories ++ [place] } where
  workingDirectory := rfl
  files := rfl
  isDirectory p hp := by
    simp only [FileTree.isDirectory, List.contains_append, Bool.or_eq_true] at hp ⊢
    exact hp.imp_right Or.inl
  vacant p hp := by
    simp only [FileTree.isDirectory, List.contains_append, List.contains_cons, List.contains_nil, Bool.or_false,
      Bool.or_eq_true, beq_iff_eq] at hp ⊢
    rcases hp with hp | hp | rfl
    · exact Or.inl (Or.inl hp)
    · exact Or.inl (Or.inr hp)
    · exact Or.inr h

theorem makePlaces_grows (h : t.makePlaces start names = .ok t') : t.Grows t' := by
  induction names generalizing t start with
  | nil =>
    cases h
    exact Grows.refl _
  | cons name names ih =>
    rw [makePlaces] at h
    cases hstep : t.step start name with
    | error e =>
      rw [hstep] at h
      cases h
    | ok next =>
      rw [hstep] at h
      by_cases hdirectory : t.isDirectory next = true
      · simp only [bind, Except.bind, hdirectory, if_true] at h
        exact ih h
      · cases hfile : t.file? next with
        | some old =>
          simp [bind, Except.bind, hdirectory, hfile] at h
        | none =>
          simp only [bind, Except.bind, hdirectory, hfile, Option.isSome_none, if_false, Bool.false_eq_true] at h
          exact (grows_directory hfile).trans (ih h)

/-- Making directories changes no file. -/
theorem makeDirectories_grows (h : t.makeDirectories path = .ok t') : t.Grows t' := by
  rw [makeDirectories] at h
  split at h
  · cases h
  · exact makePlaces_grows h

/-- The tree with the directories that the file of a path lies in. -/
def withParents (t : FileTree) (path : String) : Except FileError FileTree :=
  match FilePath.parent? path with
  | some directory => t.makeDirectories directory
  | none => .ok t

theorem withParents_grows (h : t.withParents path = .ok t') : t.Grows t' := by
  rw [withParents] at h
  split at h
  · exact makeDirectories_grows h
  · cases h
    exact .refl t

namespace Grows

variable (h : t.Grows t')
include h

theorem resolve_ok (hresolve : t.resolve path = .ok place) : t'.resolve path = .ok place :=
  resolve_mono h.isDirectory h.workingDirectory hresolve

/-- A step that got through only in the larger tree was one from a missing directory. -/
theorem step_missing {e : FileError} (hbefore : t.step start name = .error e) (hafter : t'.step start name = .ok q) :
    e = .notFound ∧ t.isDirectory start = false ∧ t.file? start = none := by
  have hstart' := isDirectory_of_step hafter
  have hstart : t.isDirectory start = false := by
    by_contra hstart
    rw [step_of_isDirectory (by simpa using hstart) hstart', hbefore] at hafter
    cases hafter
  have hnone : t.file? start = none := by
    rcases h.vacant start hstart' with hdirectory | hnone
    · rw [hstart] at hdirectory
      cases hdirectory
    · exact hnone
  rw [step_of_not_isDirectory hstart, hnone] at hbefore
  cases hbefore
  exact ⟨rfl, hstart, hnone⟩

end Grows

/-! ## Trees in directories -/

/-- A tree in which all that there is lies in directories. -/
structure Enclosed (t : FileTree) : Prop where
  file_above : ∀ place text, t.file? place = some text → t.isDirectory place.dropLast = true
  directory_above : ∀ place, t.isDirectory place = true → t.isDirectory place.dropLast = true

/-- All above a directory are directories. -/
theorem Enclosed.isDirectory_of_below (henclosed : t.Enclosed) {more : List String}
    (h : t.isDirectory (start ++ more) = true) : t.isDirectory start = true := by
  induction more using List.reverseRecOn with
  | nil => simpa using h
  | append_singleton more last ih =>
    have habove := henclosed.directory_above _ h
    rw [← List.append_assoc, List.dropLast_concat] at habove
    exact ih habove

/-- Names that do not turn back lead further down. -/
theorem prefix_of_follow (hnames : ".." ∉ names) (h : t.follow start names = .ok place) : start <+: place := by
  induction names generalizing start with
  | nil =>
    cases h
    exact List.prefix_rfl
  | cons name names ih =>
    rw [follow_cons] at h
    cases hstep : t.step start name with
    | error e =>
      rw [hstep] at h
      cases h
    | ok next =>
      rw [hstep] at h
      have hnext : start <+: next := by
        have hname : ¬(name == "..") = true := by
          intro hname
          exact hnames (by simp [(beq_iff_eq.1 hname)])
        rw [step, if_pos (isDirectory_of_step hstep), if_neg hname] at hstep
        split at hstep
        · cases hstep
          exact List.prefix_rfl
        · split at hstep
          · cases hstep
          · cases hstep
            exact List.prefix_append start [name]
      exact hnext.trans (ih (fun hmem => hnames (List.mem_cons_of_mem name hmem)) h)

theorem Grows.follow_turns_back {e : FileError} (h : t.Grows t') (henclosed : t.Enclosed)
    (hfile : t.file? place = some text) (hbefore : t.follow start names = .error e)
    (hafter : t'.follow start names = .ok place) : e = .notFound ∧ ".." ∈ names := by
  induction names generalizing start with
  | nil => cases hbefore
  | cons name names ih =>
    have hall := hafter
    rw [follow_cons] at hbefore hafter
    cases hstep' : t'.step start name with
    | error e' =>
      rw [hstep'] at hafter
      cases hafter
    | ok next =>
      rw [hstep'] at hafter
      cases hstep : t.step start name with
      | ok next' =>
        have hsame : t'.step start name = t.step start name :=
          step_of_isDirectory (isDirectory_of_step hstep) (isDirectory_of_step hstep')
        rw [hstep, hstep'] at hsame
        cases hsame
        rw [hstep] at hbefore
        obtain ⟨he, hback⟩ := ih hbefore hafter
        exact ⟨he, List.mem_cons_of_mem name hback⟩
      | error e' =>
        rw [hstep] at hbefore
        cases hbefore
        obtain ⟨he, hstart, hnone⟩ := h.step_missing hstep hstep'
        refine ⟨he, ?_⟩
        -- a file further down would make the missing place a directory
        by_contra hnames
        obtain ⟨more, rfl⟩ := prefix_of_follow hnames hall
        rcases List.eq_nil_or_concat more with rfl | ⟨front, last, rfl⟩
        · rw [List.append_nil, hnone] at hfile
          cases hfile
        · have habove := henclosed.file_above _ _ hfile
          rw [List.concat_eq_append, ← List.append_assoc, List.dropLast_concat] at habove
          rw [henclosed.isDirectory_of_below habove] at hstart
          cases hstart

/-- **A path that led nowhere leads to a file after directories were made only if it turns back:** it was not
found for want of a directory, and goes upwards somewhere. -/
theorem Grows.turns_back {e : FileError} (h : t.Grows t') (henclosed : t.Enclosed)
    (hbefore : t.resolve path = .error e) (hafter : t'.resolve path = .ok place) (hfile : t.file? place = some text) :
    e = .notFound ∧ ".." ∈ (FilePath.split path).2 := by
  obtain ⟨hempty, hzero, hafter⟩ := follow_of_resolve hafter
  have horigin : t'.origin path = t.origin path := by rw [origin, origin, h.workingDirectory]
  rw [resolve_eq hempty hzero] at hbefore
  rw [horigin] at hafter
  exact h.follow_turns_back henclosed hfile hbefore hafter

end FileTree

end QueueBoard
