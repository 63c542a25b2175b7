import FinancialDashboard.Lib.Transition
import FinancialDashboard.Paisa.Publisher
import Mathlib.Logic.Function.Basic
import Mathlib.Tactic.SplitIfs

/-!
# The publish, call by call

`publish_journal` checks, makes a temporary file beside the target, writes,
flushes and syncs it, renames it over the target and syncs the directory.  Each
of these is one `Call` of the system `publishing`.  A call may end in an
`OSError`, and a process that stops leaves the files as they are then, so that
the states a stopped publish leaves are all the reachable ones.

* `Published`: what the files are at any time.  The target is as it was or holds
  the whole new file, and besides there may be a temporary file.
* `publish_atomic`: so a publish is atomic, a foreign file is left alone, a
  second publish writes nothing, and the header carries the hash of the body.
* `publishJournal_of_returned`, `publishJournal_of_raised`: a run that comes to
  its end ends as `publishJournal` says.
-/

namespace FinancialDashboard.Paisa

open PyText Transition

/-! ### Bytes and lines -/

@[simp] theorem encode_append (a b : String) : encode (a ++ b) = encode a ++ encode b := by
  simp [encode]

theorem encode_eq_flatMap (s : String) : encode s = s.toList.flatMap String.utf8EncodeChar := by
  have h : s.toUTF8 = s.toList.utf8Encode := by
    rw [← String.toByteArray_ofList, String.ofList_toList]
    rfl
  simp only [encode, h, List.utf8Encode, List.data_toByteArray]

/-- Only the newline has the byte of a newline in it. -/
theorem newline_of_mem_utf8EncodeChar {c : Char} (h : (10 : UInt8) ∈ String.utf8EncodeChar c) :
    c = '\n' := by
  have key : c.val.toNat = 10 := by
    simp only [String.utf8EncodeChar] at h
    generalize c.val.toNat = v at h
    split_ifs at h with h1 h2 h3
    all_goals
      simp only [List.mem_cons, List.not_mem_nil, or_false, ← UInt8.toNat_inj] at h
      simp at h
      omega
  apply Char.ext
  exact UInt32.toNat_inj.mp key

theorem newline_notMem_encode {s : String} (h : '\n' ∉ s.toList) : (10 : UInt8) ∉ encode s := by
  rw [encode_eq_flatMap, List.mem_flatMap]
  rintro ⟨c, hc, hmem⟩
  exact h (newline_of_mem_utf8EncodeChar hmem ▸ hc)

/-- `file.split(b"\n", 1)[1]`. -/
def dropLine (bytes : Bytes) : Bytes := (bytes.dropWhile (· ≠ 10)).drop 1

theorem firstLine_append {line : Bytes} (h : (10 : UInt8) ∉ line) (rest : Bytes) :
    firstLine (line ++ 10 :: rest) = line := by
  induction line with
  | nil => simp [firstLine]
  | cons b line ih =>
    have hb : b ≠ 10 := fun e => h (by simp [e])
    have hline : (10 : UInt8) ∉ line := fun hm => h (List.mem_cons_of_mem b hm)
    simpa [firstLine, hb] using ih hline

theorem dropLine_append {line : Bytes} (h : (10 : UInt8) ∉ line) (rest : Bytes) :
    dropLine (line ++ 10 :: rest) = rest := by
  induction line with
  | nil => simp [dropLine]
  | cons b line ih =>
    have hb : b ≠ 10 := fun e => h (by simp [e])
    have hline : (10 : UInt8) ∉ line := fun hm => h (List.mem_cons_of_mem b hm)
    simpa [dropLine, hb] using ih hline

/-! ### The header -/

/-- The hash a file records and the body that follows it: behind the fixed lines
stand the line of the hash and an empty line. -/
def recordedHash (file : Bytes) : Option (Bytes × Bytes) :=
  let rest := dropLine (dropLine (dropLine file))
  let label := encode "; hash: "
  if label.isPrefixOf rest && (firstLine (dropLine rest)).isEmpty then
    some ((firstLine rest).drop label.length, dropLine (dropLine rest))
  else none

variable {sha256 : String → String}

/-- `hexdigest` writes hexadecimal digits. -/
def Hexdigest (sha256 : String → String) : Prop :=
  ∀ body, ∀ c ∈ (sha256 body).toList, c ∈ "0123456789abcdef".toList

theorem Hexdigest.no_newline (h : Hexdigest sha256) (body : String) :
    '\n' ∉ (sha256 body).toList := fun hmem => absurd (h body _ hmem) (by simp)

/-- The file `_compose` makes, line by line. -/
theorem compose_lines (body : String) : (compose sha256 body).1 =
    encode sentinel ++ 10 :: (encode "; This file is overwritten on every generate/sync. Changes are lost."
      ++ 10 :: (encode ("; version: " ++ generatedHeaderVersion) ++
        10 :: (encode ("; hash: " ++ sha256 body) ++ 10 :: ([] ++ 10 :: encode body)))) := by
  have hnl : encode "\n" = [10] := by decide
  have hnl2 : encode "\n\n" = [10, 10] := by decide
  have hnlh : encode "\n; hash: " = 10 :: encode "; hash: " := by decide
  simp only [compose, headerLines, String.intercalate_cons_cons, String.intercalate_singleton,
    encode_append, hnl, hnl2, hnlh, List.append_assoc, List.cons_append, List.nil_append]

theorem firstLine_compose (body : String) :
    firstLine (compose sha256 body).1 = encode sentinel := by
  rw [compose_lines]
  exact firstLine_append (newline_notMem_encode (by simp [sentinel])) _

/-- **The hash in the header is the hash of the body that follows it.** -/
theorem recordedHash_compose (hex : Hexdigest sha256) (body : String) :
    recordedHash (compose sha256 body).1 = some (encode (sha256 body), encode body) := by
  have hline : (10 : UInt8) ∉ encode ("; hash: " ++ sha256 body) := by
    refine newline_notMem_encode ?_
    rw [String.toList_append, List.mem_append, not_or]
    exact ⟨by simp, hex.no_newline body⟩
  have h1 : (10 : UInt8) ∉ encode sentinel := newline_notMem_encode (by simp [sentinel])
  have h2 : (10 : UInt8) ∉
      encode "; This file is overwritten on every generate/sync. Changes are lost." :=
    newline_notMem_encode (by simp)
  have h3 : (10 : UInt8) ∉ encode ("; version: " ++ generatedHeaderVersion) :=
    newline_notMem_encode (by simp [generatedHeaderVersion])
  have hnil : (10 : UInt8) ∉ ([] : Bytes) := List.not_mem_nil
  simp only [recordedHash, compose_lines, dropLine_append h1, dropLine_append h2, dropLine_append h3,
    dropLine_append hline, firstLine_append hline, firstLine_append hnil, dropLine_append hnil]
  simp

/-! ### The calls -/

/-- What is at every path. -/
abbrev Files := Path → TargetFile

/-- Where `publish_journal` is. -/
inductive PublishPhase
  | check
  | create (target : Path)
  | write (target tmp : Path)
  | fsync (target tmp : Path)
  | replace (target tmp : Path)
  | fsyncDir (target tmp : Path)
  /-- In `except OSError`. -/
  | cleanup (tmp : Path) (error : String)
  | returned (result : PublishResult)
  | raised (exc : PublishException)
  deriving DecidableEq, Repr

structure PublishState where
  files : Files
  phase : PublishPhase

/-- A system call that comes back, or fails. -/
inductive PublishCall
  /-- `_check_path`, `exists` and `read_bytes`. -/
  | check
  | mkstemp (random : String)
  /-- The file holds the first `n` bytes by now. -/
  | written (n : Nat)
  | flush
  | fsync
  | replace
  | fsyncDir
  | unlink (removed : Bool)
  | osError (message : String)
  deriving DecidableEq, Repr

/-- `mkstemp(prefix=f".{target.name}.", suffix=".tmp", dir=str(parent))`. -/
def Path.temporary (target : Path) (random : String) : Path :=
  { target.parent with
    parts := target.parent.parts ++ ["." ++ target.parts.getLastD "" ++ "." ++ random ++ ".tmp"] }

section

variable [UnicodeTables] (fs : FileSystem) (sha256 : String → String) (path body : String)

/-- The checks, and how they leave a file that needs no write. -/
def checked (files : Files) : PublishPhase :=
  match checkPath fs path with
  | .error exc => .raised exc
  | .ok target =>
    match files target with
    | .absent => .create target
    | .unreadable error => .raised (.publishError (unreadableMessage target error))
    | .holds existing =>
      if firstLine existing ≠ encode sentinel then
        .raised (.publishError (unmanagedMessage target))
      else if existing = (compose sha256 body).1 then
        .returned ⟨false, target.toString, generatedHeaderVersion, (compose sha256 body).2,
          existing.length⟩
      else .create target

/-- What a publish that wrote returns. -/
def writtenResult (target : Path) : PublishResult :=
  ⟨true, target.toString, generatedHeaderVersion, (compose sha256 body).2,
    (compose sha256 body).1.length⟩

/-- One call.  `mkstemp` only ever makes a new file; an `OSError` before it has
nothing to clean up. -/
def publishStep (s : PublishState) : PublishCall → Option PublishState
  | .check =>
    match s.phase with
    | .check => some { s with phase := checked fs sha256 path body s.files }
    | _ => none
  | .mkstemp random =>
    match s.phase with
    | .create target =>
      if s.files (target.temporary random) = .absent then
        some ⟨Function.update s.files (target.temporary random) (.holds []),
          .write target (target.temporary random)⟩
      else none
    | _ => none
  | .written n =>
    match s.phase with
    | .write target tmp =>
      some ⟨Function.update s.files tmp (.holds ((compose sha256 body).1.take n)),
        .write target tmp⟩
    | _ => none
  | .flush =>
    match s.phase with
    | .write target tmp =>
      some ⟨Function.update s.files tmp (.holds (compose sha256 body).1), .fsync target tmp⟩
    | _ => none
  | .fsync =>
    match s.phase with
    | .fsync target tmp => some { s with phase := .replace target tmp }
    | _ => none
  | .replace =>
    match s.phase with
    | .replace target tmp =>
      some ⟨Function.update (Function.update s.files target (s.files tmp)) tmp .absent,
        .fsyncDir target tmp⟩
    | _ => none
  | .fsyncDir =>
    match s.phase with
    | .fsyncDir target _ =>
      some { s with phase := .returned (writtenResult sha256 body target) }
    | _ => none
  | .unlink removed =>
    match s.phase with
    | .cleanup tmp error =>
      some ⟨if removed then Function.update s.files tmp .absent else s.files,
        .raised (.osError error)⟩
    | _ => none
  | .osError message =>
    match s.phase with
    | .create _ => some { s with phase := .raised (.osError message) }
    | .write _ tmp | .fsync _ tmp | .replace _ tmp | .fsyncDir _ tmp =>
      some { s with phase := .cleanup tmp message }
    | _ => none

/-- `publish_journal`, one call at a time. -/
def publishing : System PublishState PublishCall where
  step := publishStep fs sha256 path body

end

/-! ### What the files are at any time -/

theorem temporary_ne (target : Path) (random : String) : target.temporary random ≠ target := by
  intro h
  have hparts := congrArg Path.parts h
  have hlast := congrArg (fun parts => (parts.getLastD "").length) hparts
  simp only [Path.temporary, List.getLastD_concat, String.length_append] at hlast
  have h1 : ".".length = 1 := rfl
  omega

/-- A file that says it is generated. -/
def Managed (file : TargetFile) : Prop :=
  ∃ bytes, file = .holds bytes ∧ firstLine bytes = encode sentinel

section

variable [UnicodeTables] {fs : FileSystem} {path body : String} {files : Files}

/-- The checks let a write of the target pass. -/
structure Writable (fs : FileSystem) (sha256 : String → String) (path body : String)
    (files : Files) (target : Path) : Prop where
  checked : checkPath fs path = .ok target
  replaceable : files target = .absent ∨ Managed (files target)
  differs : files target ≠ .holds (compose sha256 body).1

/-- The files once a publish that may write has started: as they were, with a
temporary file, or with the whole new file at the target. -/
inductive Published (sha256 : String → String) (body : String) (files : Files) (target : Path) :
    Files → Prop
  | old : Published sha256 body files target files
  | temporary (tmp : Path) (file : TargetFile) (free : files tmp = .absent) (other : tmp ≠ target) :
    Published sha256 body files target (Function.update files tmp file)
  | new : Published sha256 body files target
      (Function.update files target (.holds (compose sha256 body).1))

/-- What holds in each phase. -/
def PublishInvariant (fs : FileSystem) (sha256 : String → String) (path body : String)
    (files : Files) (s : PublishState) : Prop :=
  match s.phase with
  | .check => s.files = files
  | .create target => Writable fs sha256 path body files target ∧ s.files = files
  | .write target tmp => Writable fs sha256 path body files target ∧ files tmp = .absent ∧
      tmp ≠ target ∧ ∃ file, s.files = Function.update files tmp file
  | .fsync target tmp | .replace target tmp => Writable fs sha256 path body files target ∧
      files tmp = .absent ∧ tmp ≠ target ∧
      s.files = Function.update files tmp (.holds (compose sha256 body).1)
  | .fsyncDir target tmp => Writable fs sha256 path body files target ∧ files tmp = .absent ∧
      tmp ≠ target ∧ s.files = Function.update files target (.holds (compose sha256 body).1)
  | .cleanup tmp _ => ∃ target, Writable fs sha256 path body files target ∧ files tmp = .absent ∧
      tmp ≠ target ∧ ((∃ file, s.files = Function.update files tmp file) ∨
        s.files = Function.update files target (.holds (compose sha256 body).1))
  | .returned result => (s.files = files ∧ checked fs sha256 path body files = .returned result) ∨
      ∃ target, Writable fs sha256 path body files target ∧
        result = writtenResult sha256 body target ∧
        s.files = Function.update files target (.holds (compose sha256 body).1)
  | .raised exc => (s.files = files ∧ checked fs sha256 path body files = .raised exc) ∨
      ∃ target error, Writable fs sha256 path body files target ∧ exc = .osError error ∧
        Published sha256 body files target s.files

/-- Where the checks send the publish. -/
theorem checked_cases (fs : FileSystem) (sha256 : String → String) (path body : String)
    (files : Files) :
    (∃ exc, checked fs sha256 path body files = .raised exc) ∨
    (∃ target, Writable fs sha256 path body files target ∧
      checked fs sha256 path body files = .create target) ∨
    (∃ target, checkPath fs path = .ok target ∧ files target = .holds (compose sha256 body).1 ∧
      checked fs sha256 path body files = .returned ⟨false, target.toString,
        generatedHeaderVersion, (compose sha256 body).2, (compose sha256 body).1.length⟩) := by
  unfold checked
  rcases hcheck : checkPath fs path with exc | target
  · exact .inl ⟨exc, rfl⟩
  cases hread : files target with
  | absent =>
    right; left
    exact ⟨target, ⟨hcheck, .inl hread, by simp [hread]⟩, by simp [hread]⟩
  | unreadable error => exact .inl ⟨.publishError (unreadableMessage target error), by simp [hread]⟩
  | holds existing =>
    by_cases hline : firstLine existing = encode sentinel
    · by_cases hsame : existing = (compose sha256 body).1
      · right; right
        subst hsame
        exact ⟨target, rfl, hread, by simp [hread, hline]⟩
      · right; left
        refine ⟨target, ⟨hcheck, .inr ⟨existing, hread, hline⟩, ?_⟩, by simp [hread, hline, hsame]⟩
        rw [hread]
        simpa using hsame
    · exact .inl ⟨.publishError (unmanagedMessage target), by simp [hread, hline]⟩

omit [UnicodeTables] in
/-- The rename takes the temporary file away with the old one. -/
theorem update_replaced {target tmp : Path} {file : TargetFile} (free : files tmp = .absent)
    (other : tmp ≠ target) :
    Function.update (Function.update (Function.update files tmp file) target
      (Function.update files tmp file tmp)) tmp .absent = Function.update files target file := by
  funext p
  by_cases htmp : p = tmp
  · subst htmp
    simp [other, free]
  · by_cases htarget : p = target
    · subst htarget
      simp [htmp]
    · simp [htmp, htarget]

omit [UnicodeTables] in
/-- Removing the temporary file leaves what else there is. -/
theorem update_removed {target tmp : Path} {new : Files} (free : files tmp = .absent)
    (other : tmp ≠ target) (h : (∃ file, new = Function.update files tmp file) ∨
      new = Function.update files target (.holds (compose sha256 body).1)) (removed : Bool) :
    Published sha256 body files target
      (if removed then Function.update new tmp .absent else new) := by
  cases removed with
  | false =>
    rcases h with ⟨file, rfl⟩ | rfl
    · exact .temporary tmp file free other
    · exact .new
  | true =>
    rcases h with ⟨file, rfl⟩ | rfl
    · have hsame : Function.update (Function.update files tmp file) tmp .absent = files := by
        rw [Function.update_idem, ← free, Function.update_eq_self]
      rw [if_pos rfl, hsame]
      exact .old
    · have hkept : Function.update (Function.update files target
          (.holds (compose sha256 body).1)) tmp .absent =
          Function.update files target (.holds (compose sha256 body).1) := by
        rw [Function.update_comm other.symm, ← free, Function.update_eq_self]
      rw [if_pos rfl, hkept]
      exact .new

/-- **One call** keeps the invariant. -/
theorem publishStep_invariant {s t : PublishState} {call : PublishCall}
    (h : PublishInvariant fs sha256 path body files s)
    (hstep : publishStep fs sha256 path body s call = some t) :
    PublishInvariant fs sha256 path body files t := by
  obtain ⟨now, phase⟩ := s
  cases call with
  | check =>
    cases phase with
    | check =>
      cases h
      cases hstep
      rcases checked_cases fs sha256 path body now with
        ⟨exc, hexc⟩ | ⟨target, hw, hcreate⟩ | ⟨target, _, _, hret⟩
      · simp only [hexc]
        exact .inl ⟨rfl, hexc⟩
      · simp only [hcreate]
        exact ⟨hw, rfl⟩
      · simp only [hret]
        exact .inl ⟨rfl, hret⟩
    | _ => cases hstep
  | mkstemp random =>
    cases phase with
    | create target =>
      obtain ⟨hw, rfl⟩ := h
      simp only [publishStep] at hstep
      split_ifs at hstep with hfree
      cases hstep
      exact ⟨hw, hfree, temporary_ne target random, _, rfl⟩
    | _ => cases hstep
  | written n =>
    cases phase with
    | write target tmp =>
      obtain ⟨hw, hfree, hne, file, rfl⟩ := h
      cases hstep
      exact ⟨hw, hfree, hne, _, Function.update_idem _ _ _⟩
    | _ => cases hstep
  | flush =>
    cases phase with
    | write target tmp =>
      obtain ⟨hw, hfree, hne, file, rfl⟩ := h
      cases hstep
      exact ⟨hw, hfree, hne, Function.update_idem _ _ _⟩
    | _ => cases hstep
  | fsync =>
    cases phase with
    | fsync target tmp =>
      cases hstep
      exact h
    | _ => cases hstep
  | replace =>
    cases phase with
    | replace target tmp =>
      obtain ⟨hw, hfree, hne, rfl⟩ := h
      cases hstep
      refine ⟨hw, hfree, hne, (update_replaced hfree hne).trans ?_⟩
      rfl
    | _ => cases hstep
  | fsyncDir =>
    cases phase with
    | fsyncDir target tmp =>
      obtain ⟨hw, _, _, rfl⟩ := h
      cases hstep
      exact .inr ⟨target, hw, rfl, rfl⟩
    | _ => cases hstep
  | unlink removed =>
    cases phase with
    | cleanup tmp error =>
      obtain ⟨target, hw, hfree, hne, hfiles⟩ := h
      cases hstep
      exact .inr ⟨target, error, hw, rfl, update_removed hfree hne hfiles removed⟩
    | _ => cases hstep
  | osError message =>
    cases phase with
    | create target =>
      obtain ⟨hw, rfl⟩ := h
      cases hstep
      exact .inr ⟨target, message, hw, rfl, .old⟩
    | write target tmp =>
      obtain ⟨hw, hfree, hne, hfiles⟩ := h
      cases hstep
      exact ⟨target, hw, hfree, hne, .inl hfiles⟩
    | fsync target tmp | replace target tmp =>
      obtain ⟨hw, hfree, hne, hfiles⟩ := h
      cases hstep
      exact ⟨target, hw, hfree, hne, .inl ⟨_, hfiles⟩⟩
    | fsyncDir target tmp =>
      obtain ⟨hw, hfree, hne, hfiles⟩ := h
      cases hstep
      exact ⟨target, hw, hfree, hne, .inr hfiles⟩
    | _ => cases hstep

/-- **Every state of a run.** -/
theorem publishInvariant_of_run {s : PublishState}
    (h : (publishing fs sha256 path body).Run System.always ⟨files, .check⟩ s) :
    PublishInvariant fs sha256 path body files s :=
  h.invariant (I := PublishInvariant fs sha256 path body files)
    (fun _ _ _ hs _ hstep => publishStep_invariant hs hstep) rfl

/-- At any time the files are as they were, or the checks let a write pass and
the files are as `Published` says. -/
theorem published_of_run {s : PublishState}
    (h : (publishing fs sha256 path body).Run System.always ⟨files, .check⟩ s) :
    s.files = files ∨ ∃ target, Writable fs sha256 path body files target ∧
      Published sha256 body files target s.files := by
  have hinv := publishInvariant_of_run h
  obtain ⟨now, phase⟩ := s
  cases phase with
  | check => exact .inl hinv
  | create target => exact .inl hinv.2
  | write target tmp =>
    obtain ⟨hw, hfree, hne, file, hfiles⟩ := hinv
    exact .inr ⟨target, hw, hfiles ▸ .temporary tmp file hfree hne⟩
  | fsync target tmp | replace target tmp =>
    obtain ⟨hw, hfree, hne, hfiles⟩ := hinv
    exact .inr ⟨target, hw, hfiles ▸ .temporary tmp _ hfree hne⟩
  | fsyncDir target tmp =>
    obtain ⟨hw, _, _, hfiles⟩ := hinv
    exact .inr ⟨target, hw, hfiles ▸ .new⟩
  | cleanup tmp error =>
    obtain ⟨target, hw, hfree, hne, ⟨file, hfiles⟩ | hfiles⟩ := hinv
    · exact .inr ⟨target, hw, hfiles ▸ .temporary tmp file hfree hne⟩
    · exact .inr ⟨target, hw, hfiles ▸ .new⟩
  | returned result =>
    rcases hinv with ⟨hfiles, _⟩ | ⟨target, hw, _, hfiles⟩
    · exact .inl hfiles
    · exact .inr ⟨target, hw, hfiles ▸ .new⟩
  | raised exc =>
    rcases hinv with ⟨hfiles, _⟩ | ⟨target, error, hw, _, hpub⟩
    · exact .inl hfiles
    · exact .inr ⟨target, hw, hpub⟩

/-! ### What follows -/

omit [UnicodeTables] in
theorem Published.target {target : Path} {now : Files}
    (h : Published sha256 body files target now) :
    now target = files target ∨ now target = .holds (compose sha256 body).1 := by
  cases h with
  | old => exact .inl rfl
  | temporary tmp file free other =>
    left
    rw [Function.update_of_ne other.symm]
  | new => exact .inr (Function.update_self _ _ _)

/-- What a publish that may write leaves alone: whatever is there and does not
say that it is generated. -/
theorem Published.foreign {target p : Path} {now : Files}
    (h : Published sha256 body files target now) (hw : Writable fs sha256 path body files target)
    (there : files p ≠ .absent) (foreign : ¬ Managed (files p)) : now p = files p := by
  cases h with
  | old => rfl
  | temporary tmp file free other =>
    have hne : p ≠ tmp := fun e => there (e ▸ free)
    rw [Function.update_of_ne hne]
  | new =>
    have hne : p ≠ target := by
      rintro rfl
      exact hw.replaceable.elim there foreign
    rw [Function.update_of_ne hne]

/-- The checks pass over a target that holds the file already. -/
theorem checked_of_same {target : Path} (hcheck : checkPath fs path = .ok target)
    (hread : files target = .holds (compose sha256 body).1) :
    checked fs sha256 path body files = .returned ⟨false, target.toString,
      generatedHeaderVersion, (compose sha256 body).2, (compose sha256 body).1.length⟩ := by
  simp [checked, hcheck, hread, firstLine_compose]

/-- Once a publish has come back, the target holds the file. -/
theorem target_of_returned {s : PublishState} {result : PublishResult}
    (h : (publishing fs sha256 path body).Run System.always ⟨files, .check⟩ s)
    (hret : s.phase = .returned result) : ∃ target, checkPath fs path = .ok target ∧
      s.files target = .holds (compose sha256 body).1 := by
  have hinv := publishInvariant_of_run h
  obtain ⟨now, phase⟩ := s
  cases hret
  rcases hinv with ⟨rfl, hchecked⟩ | ⟨target, hw, _, hfiles⟩
  · rcases checked_cases fs sha256 path body now with
      ⟨exc, hexc⟩ | ⟨target, _, hcreate⟩ | ⟨target, hcheck, hread, _⟩
    · rw [hexc] at hchecked
      cases hchecked
    · rw [hcreate] at hchecked
      cases hchecked
    · exact ⟨target, hcheck, hread⟩
  · refine ⟨target, hw.checked, ?_⟩
    change now = _ at hfiles
    rw [hfiles]
    exact Function.update_self _ _ _

/-- **A second publish of the same journal** passes the checks and is done. -/
theorem second_publish_writes_nothing {target : Path} {s : PublishState}
    (hcheck : checkPath fs path = .ok target)
    (hread : files target = .holds (compose sha256 body).1)
    (h : (publishing fs sha256 path body).Run System.always ⟨files, .check⟩ s) :
    s.files = files ∧ (s.phase = .check ∨ ∃ r, s.phase = .returned r ∧ r.published = false) := by
  have hchecked : checked fs sha256 path body files = _ := checked_of_same hcheck hread
  refine h.invariant (I := fun s => s.files = files ∧
    (s.phase = .check ∨ ∃ r, s.phase = .returned r ∧ r.published = false)) ?_ ⟨rfl, .inl rfl⟩
  rintro ⟨now, phase⟩ call t ⟨rfl, hphase⟩ _ hstep
  rcases hphase with rfl | ⟨r, rfl, _⟩
  · cases call with
    | check =>
      cases hstep
      exact ⟨rfl, .inr ⟨_, hchecked, rfl⟩⟩
    | _ => cases hstep
  · cases call with
    | _ => cases hstep

/-- **Publishing is atomic and idempotent**, whatever the files hold and wherever
it fails or stops. -/
theorem publish_atomic (hex : Hexdigest sha256) {s : PublishState}
    (h : (publishing fs sha256 path body).Run System.always ⟨files, .check⟩ s) :
    (∀ target, checkPath fs path = .ok target →
      s.files target = files target ∨ s.files target = .holds (compose sha256 body).1) ∧
    (∀ p, files p ≠ .absent → ¬ Managed (files p) → s.files p = files p) ∧
    (∀ result, s.phase = .returned result → ∀ s',
      (publishing fs sha256 path body).Run System.always ⟨s.files, .check⟩ s' →
        s'.files = s.files ∧
          (s'.phase = .check ∨ ∃ r, s'.phase = .returned r ∧ r.published = false)) ∧
    recordedHash (compose sha256 body).1 = some (encode (sha256 body), encode body) := by
  refine ⟨fun target hcheck => ?_, fun p there foreign => ?_, fun result hret s' h' => ?_,
    recordedHash_compose hex body⟩
  · rcases published_of_run h with hfiles | ⟨target', hw, hpub⟩
    · exact .inl (by rw [hfiles])
    · obtain rfl : target' = target := Except.ok.inj (hw.checked.symm.trans hcheck)
      exact hpub.target
  · rcases published_of_run h with hfiles | ⟨target, hw, hpub⟩
    · rw [hfiles]
    · exact hpub.foreign hw there foreign
  · obtain ⟨target, hcheck, hread⟩ := target_of_returned h hret
    exact second_publish_writes_nothing hcheck hread h'

/-! ### The publish as one function -/

/-- The files, to `publishJournal`. -/
def FileSystem.over (fs : FileSystem) (files : Files) (error : Option String) : FileSystem :=
  { fs with read := files, writeError := fun _ => error }

theorem publishJournal_over (error : Option String) :
    publishJournal (fs.over files error) sha256 path body =
      match checked fs sha256 path body files with
      | .raised exc => .error exc
      | .returned result => .ok (result, (compose sha256 body).1)
      | .create target =>
        match error with
        | some message => .error (.osError message)
        | none => .ok (writtenResult sha256 body target, (compose sha256 body).1)
      | _ => .error (.osError "") := by
  have hpath : checkPath (fs.over files error) path = checkPath fs path := rfl
  unfold publishJournal checked
  rw [hpath]
  rcases checkPath fs path with exc | target
  · rfl
  · have hread : (fs.over files error).read target = files target := rfl
    have hwrite : (fs.over files error).writeError target = error := rfl
    simp only [hread, hwrite, bind, Except.bind]
    cases files target with
    | absent => cases error <;> rfl
    | unreadable message => rfl
    | holds existing =>
      dsimp only
      split_ifs with hline hsame
      · rfl
      · rw [hsame]
        rfl
      · cases error <;> rfl

theorem checked_of_writable {target : Path} (hw : Writable fs sha256 path body files target) :
    checked fs sha256 path body files = .create target := by
  rcases hw.replaceable with habsent | ⟨existing, hread, hline⟩
  · simp [checked, hw.checked, habsent]
  · have hdiffers : existing ≠ (compose sha256 body).1 := fun e => hw.differs (by rw [hread, e])
    simp [checked, hw.checked, hread, hline, hdiffers]

/-- A run that comes back does so as `publishJournal` on files that can be
written. -/
theorem publishJournal_of_returned {s : PublishState} {result : PublishResult}
    (h : (publishing fs sha256 path body).Run System.always ⟨files, .check⟩ s)
    (hret : s.phase = .returned result) :
    publishJournal (fs.over files none) sha256 path body =
      .ok (result, (compose sha256 body).1) := by
  have hinv := publishInvariant_of_run h
  obtain ⟨now, phase⟩ := s
  cases hret
  rw [publishJournal_over]
  rcases hinv with ⟨_, hchecked⟩ | ⟨target, hw, rfl, _⟩
  · rw [hchecked]
  · rw [checked_of_writable hw]

/-- A run that ends in an exception does so as `publishJournal` on files that can
be written, or cannot. -/
theorem publishJournal_of_raised {s : PublishState} {exc : PublishException}
    (h : (publishing fs sha256 path body).Run System.always ⟨files, .check⟩ s)
    (hraised : s.phase = .raised exc) :
    ∃ error, publishJournal (fs.over files error) sha256 path body = .error exc := by
  have hinv := publishInvariant_of_run h
  obtain ⟨now, phase⟩ := s
  cases hraised
  rcases hinv with ⟨_, hchecked⟩ | ⟨target, error, hw, rfl, _⟩
  · refine ⟨none, ?_⟩
    rw [publishJournal_over, hchecked]
  · refine ⟨some error, ?_⟩
    rw [publishJournal_over, checked_of_writable hw]

end

/-- A host whose root directory is there, and the digest of the empty text. -/
def rootOnly : FileSystem where
  expanduser := .ok
  isDir p := p.parts.isEmpty
  read _ := .absent
  writeError _ := none

def emptyDigest (_ : String) : String :=
  "e3b0c44298fc1c149afbf4c8996fb92427ae41e4649b934ca495991b7852b855"

/-- A publish of an empty journal that stops before the rename, with a file of
somebody else beside the target. -/
theorem publish_atomic_stopped : let _ := asciiTables
    let files : Files := fun p => if p = ⟨"/", ["notes"]⟩ then .holds [1, 2] else .absent
    ∃ s, (publishing rootOnly emptyDigest "/gen" "").exec ⟨files, .check⟩
        [.check, .mkstemp "x", .written 7, .flush, .fsync] = some s ∧
      (s.files ⟨"/", ["gen"]⟩ = files ⟨"/", ["gen"]⟩ ∨
        s.files ⟨"/", ["gen"]⟩ = .holds (compose emptyDigest "").1) ∧
      s.files ⟨"/", ["notes"]⟩ = .holds [1, 2] := by
  let := asciiTables
  intro _ files
  refine ⟨_, rfl, ?_⟩
  have hrun : (publishing rootOnly emptyDigest "/gen" "").Run System.always ⟨files, .check⟩ _ :=
    System.run_of_exec (System.meets_of_always [.check, .mkstemp "x", .written 7, .flush, .fsync]
      _ fun _ _ _ => trivial) rfl
  have hex : Hexdigest emptyDigest := by
    intro _ c hc
    have hall : emptyDigest "" |>.toList.all (· ∈ "0123456789abcdef".toList) := by decide
    exact of_decide_eq_true (List.all_eq_true.mp hall c hc)
  have hforeign : ¬ Managed (.holds [1, 2]) := by
    rintro ⟨bytes, hbytes, hline⟩
    cases hbytes
    revert hline
    decide
  obtain ⟨htarget, hkept, _⟩ := publish_atomic hex hrun
  exact ⟨htarget ⟨"/", ["gen"]⟩ rfl, hkept ⟨"/", ["notes"]⟩ (by decide) hforeign⟩

end FinancialDashboard.Paisa
