import CyberBrain.Relations.Maintenance

/-!
# Restoring a backup

`restore` verifies every file that the manifest names before it restores the first one. Whether the
kind of a file is known and whether a SQLite file has a destination is found out only when the loop
gets to it, and the files before it are restored by then.
-/

namespace CyberBrain.Backup

open Program Relations

/-! ### The manifest -/

/-- The `format_version` of a manifest, when it is an integer. -/
def formatVersion : Json → Option ℤ
  | .obj items =>
    match items.lookup "format_version" with
    | some (.int version) => some version
    | _                   => none
  | _          => none

/-- `_load_manifest`: the files that a manifest of version 1 names. -/
def loadManifest (backup : Checkpoint) : Except Exc (List BackupFile) := do
  require (formatVersion backup.manifest = some 1) (.valueError "unsupported backup format_version")
  pure backup.files

/-- The manifest has version 1, and its files are there as it says. -/
def Intact (backup : Checkpoint) : Prop :=
  formatVersion backup.manifest = some 1 ∧ verifyManifest backup = .ok ()

/-! ### The restore -/

/-- What a restore did: the files that took effect, in order, and how many requests it made. -/
structure RestoreState where
  restored : List BackupFile := []
  requests : ℕ := 0

/-- A file that takes effect. -/
def RestoreState.restore (s : RestoreState) (entry : BackupFile) : RestoreState where
  restored := s.restored ++ [entry]
  requests := s.requests + 1

section Restore

variable (destinations : String → Option String) (fate : ℕ → Fate)

/-- `restore_uploaded`. -/
def restoreUploaded (entry : BackupFile) : Program RestoreState Exc Unit :=
  write (fun s => fate s.requests) (·.restore entry)
    (.storageError ("Qdrant snapshot restore failed for " ++ entry.source))

/-- `_restore_sqlite`. What `sqlite3` raises is taken as a runtime error. -/
def restoreSqlite (entry : BackupFile) : Program RestoreState Exc Unit :=
  write (fun s => fate s.requests) (·.restore entry) (.runtimeError "database error")

/-- The body of the loop of `restore`. -/
def restoreEntry (entry : BackupFile) : Program RestoreState Exc Unit :=
  if entry.kind = "qdrant_collection" then restoreUploaded fate entry
  else if entry.kind = "sqlite" then
    match destinations entry.source with
    | none   => raise (.valueError ("missing SQLite restore destination: " ++ entry.source))
    | some _ => restoreSqlite fate entry
  else raise (.valueError ("unsupported backup file kind: " ++ entry.kind))

/-- `restore`. -/
def restore (backup : Checkpoint) : Program RestoreState Exc (List BackupFile) := do
  let files ← ofExcept (loadManifest backup)
  ofExcept (verifyManifest backup)
  forEach (restoreEntry destinations fate) files
  pure files

end Restore

/-! ### What the loop does -/

variable {destinations : String → Option String} {fate : ℕ → Fate} {entry : BackupFile}
  {s : RestoreState}

/-- A file whose kind is known and, for SQLite, that has a destination. -/
def Restorable (destinations : String → Option String) (entry : BackupFile) : Prop :=
  entry.kind = "qdrant_collection" ∨ entry.kind = "sqlite" ∧ (destinations entry.source).isSome

/-- An exception that is no `ValueError`. -/
def NoValueError (e : Exc) : Prop := ∀ message, e ≠ .valueError message

/-- A file that is not restorable is refused, any other one is requested. -/
lemma restoreEntry_cases (destinations : String → Option String) (fate : ℕ → Fate)
    (entry : BackupFile) :
    (¬ Restorable destinations entry ∧ ∃ message,
        restoreEntry destinations fate entry = raise (.valueError message)) ∨
      Restorable destinations entry ∧ ∃ e, NoValueError e ∧
        restoreEntry destinations fate entry =
          write (fun s => fate s.requests) (·.restore entry) e := by
  unfold restoreEntry Restorable
  split_ifs with hqdrant hsqlite
  · exact .inr ⟨.inl hqdrant, _, fun _ => Exc.noConfusion, rfl⟩
  · cases hdestination : destinations entry.source with
    | none => exact .inl ⟨by simp [hqdrant], _, rfl⟩
    | some path => exact .inr ⟨.inr ⟨hsqlite, by simp⟩, _, fun _ => Exc.noConfusion, rfl⟩
  · exact .inl ⟨by simp [hqdrant, hsqlite], _, rfl⟩

section Loop

variable (destinations) (fate) (files : List BackupFile)

/-- The loop got through `done`. -/
structure Reached (done rest : List BackupFile) (s : RestoreState) : Prop where
  split : files = done ++ rest
  restored : s.restored = done
  requests : s.requests = done.length
  restorable : ∀ entry ∈ done, Restorable destinations entry
  applied : ∀ n < done.length, fate n = .applied

/-- The loop stopped at the file after `done`: it is not restorable, or its request failed. -/
inductive Stopped (e : Exc) (s : RestoreState) : Prop
  | refused (message : String) {done : List BackupFile} {entry : BackupFile}
      {later : List BackupFile} (h : Reached destinations fate files done (entry :: later) s)
      (hentry : ¬ Restorable destinations entry) (he : e = .valueError message)
  | lost {done : List BackupFile} {entry : BackupFile} {later : List BackupFile}
      (h : Reached destinations fate files done (entry :: later) s)
      (hentry : Restorable destinations entry) (he : NoValueError e)
      (hfate : fate done.length = .lost)
  | late {done : List BackupFile} {entry : BackupFile} {later : List BackupFile} {t : RestoreState}
      (h : Reached destinations fate files done (entry :: later) t)
      (hentry : Restorable destinations entry) (he : NoValueError e)
      (hfate : fate done.length = .late) (hs : s.restored = done ++ [entry])

variable {destinations fate files}

lemma Reached.next {done rest : List BackupFile}
    (h : Reached destinations fate files done (entry :: rest) s)
    (hentry : Restorable destinations entry) (hfate : fate s.requests = .applied) :
    Reached destinations fate files (done ++ [entry]) rest (s.restore entry) where
  split := by rw [h.split, List.append_assoc, List.singleton_append]
  restored := by rw [RestoreState.restore, h.restored]
  requests := by rw [RestoreState.restore, h.requests, List.length_append, List.length_singleton]
  restorable e he := by
    rcases List.mem_append.mp he with he | he
    · exact h.restorable e he
    · rwa [List.mem_singleton.mp he]
  applied n hn := by
    rw [List.length_append, List.length_singleton] at hn
    rcases Nat.lt_succ_iff_lt_or_eq.mp hn with hn | rfl
    · exact h.applied n hn
    · rwa [← h.requests]

/-- The loop restores every file, or stops at one. -/
lemma restoreAll_triple (files : List BackupFile) :
    Triple (Reached destinations fate files [] files) (forEach (restoreEntry destinations fate) files)
      (fun _ => Reached destinations fate files files []) (Stopped destinations fate files) := by
  refine Triple.forEach (Reached destinations fate files) (fun done entry rest => ?_) files
  rcases restoreEntry_cases destinations fate entry with ⟨hentry, message, hraise⟩ |
    ⟨hentry, e, he, hwrite⟩
  · rw [hraise]
    exact Triple.raise fun s hs => .refused message hs hentry rfl
  · rw [hwrite]
    refine Triple.write (fun s hs hfate => hs.next hentry hfate) (fun s hs hfate => ?_)
      fun s hs hfate => ?_
    · exact .lost hs hentry he (hs.requests ▸ hfate)
    · exact .late hs hentry he (hs.requests ▸ hfate) (by rw [RestoreState.restore, hs.restored])

end Loop

/-! ### Restores -/

/-- A restore that raises `ValueError` has restored nothing, and any other one has restored every
file of the manifest, once. -/
def RestoresOrRefuses (files : List BackupFile) (outcome : Except Exc (List BackupFile))
    (restored : List BackupFile) : Prop :=
  ((∃ message, outcome = .error (.valueError message)) → restored = []) ∧
    ((∀ message, outcome ≠ .error (.valueError message)) → restored = files)

/-- Every file is restorable and every request goes through, but for the last one, which may fail
after it took effect. -/
def GoesThrough (destinations : String → Option String) (fate : ℕ → Fate)
    (files : List BackupFile) : Prop :=
  (∀ entry ∈ files, Restorable destinations entry) ∧
    ∀ n < files.length, fate n = .applied ∨ fate n = .late ∧ n + 1 = files.length

lemma verifyManifest_raises (backup : Checkpoint) :
    Raises (fun e => ∃ message, e = .valueError message) (verifyManifest backup) :=
  .forM fun _ => .bind (.orRaise ⟨_, rfl⟩) fun _ => .bind (.require ⟨_, rfl⟩) fun _ =>
    .require ⟨_, rfl⟩

lemma loadManifest_of_version {backup : Checkpoint} (h : formatVersion backup.manifest = some 1) :
    loadManifest backup = .ok backup.files :=
  bind_eq_ok.mpr ⟨(), if_pos h, rfl⟩

/-- A backup that is not intact is refused as a whole. -/
lemma restore_of_not_intact {backup : Checkpoint} (h : ¬ Intact backup) :
    ∃ message, restore destinations fate backup s = (.error (.valueError message), s) := by
  by_cases hversion : formatVersion backup.manifest = some 1
  · cases hverify : verifyManifest backup with
    | ok u => exact absurd ⟨hversion, hverify⟩ h
    | error e =>
      obtain ⟨message, rfl⟩ := verifyManifest_raises backup e hverify
      refine ⟨message, ?_⟩
      rw [restore, loadManifest_of_version hversion, hverify]
      rfl
  · refine ⟨"unsupported backup format_version", ?_⟩
    rw [restore, loadManifest, require, if_neg hversion]
    rfl

/-- The restore of an intact backup restores every file, or stops at one. -/
lemma restore_triple {backup : Checkpoint} (h : Intact backup) :
    Triple (fun s => s = {}) (restore destinations fate backup)
      (fun _ => Reached destinations fate backup.files backup.files [])
      (Stopped destinations fate backup.files) := by
  rw [restore, loadManifest_of_version h.1, h.2]
  change Triple _ (forEach (restoreEntry destinations fate) backup.files >>= fun _ =>
    pure backup.files) _ _
  refine Triple.bind (fun _ => Reached destinations fate backup.files backup.files [])
    ((restoreAll_triple backup.files).pre ?_) fun _ => Triple.pure fun s hs => hs
  rintro _ rfl
  exact ⟨rfl, rfl, rfl, by simp, by simp⟩

section Stopped

variable {files done later : List BackupFile} {outcome : Except Exc (List BackupFile)} {e : Exc}

/-- Where the loop refuses a file, it has restored nothing if that file is the first one. -/
lemma Reached.refused_iff (h : Reached destinations fate files done (entry :: later) s)
    (hentry : ¬ Restorable destinations entry) (message : String) :
    RestoresOrRefuses files (.error (.valueError message)) s.restored ↔
      (∃ entry ∈ files.head?, ¬ Restorable destinations entry) ∨
        GoesThrough destinations fate files := by
  have hfiles := h.split
  constructor
  · intro hrefuses
    have hnone : done = [] := h.restored ▸ hrefuses.1 ⟨message, rfl⟩
    rw [hnone, List.nil_append] at hfiles
    exact .inl ⟨entry, by simp [hfiles], hentry⟩
  · rintro (⟨first, hfirst, hrefused⟩ | hthrough)
    · have hnone : done = [] := by
        cases done with
        | nil => rfl
        | cons a done =>
          rw [hfiles] at hfirst
          obtain rfl : a = first := by simpa using hfirst
          exact absurd (h.restorable a List.mem_cons_self) hrefused
      exact ⟨fun _ => h.restored.trans hnone, fun hother => absurd rfl (hother message)⟩
    · exact absurd (hthrough.1 entry (by simp [hfiles])) hentry

/-- A loop that got past the first file did not refuse it. -/
lemma Reached.first_restorable (h : Reached destinations fate files done (entry :: later) s)
    (hentry : Restorable destinations entry) :
    ¬ ∃ entry ∈ files.head?, ¬ Restorable destinations entry := by
  rintro ⟨first, hfirst, hrefused⟩
  rw [h.split] at hfirst
  cases done with
  | nil =>
    obtain rfl : entry = first := by simpa using hfirst
    exact hrefused hentry
  | cons a done =>
    obtain rfl : a = first := by simpa using hfirst
    exact hrefused (h.restorable a List.mem_cons_self)

lemma Reached.length_lt (h : Reached destinations fate files done (entry :: later) s) :
    done.length < files.length := by
  simp [h.split]

/-- Where a request is lost, the restore is not complete. -/
lemma Reached.lost_iff (h : Reached destinations fate files done (entry :: later) s)
    (hentry : Restorable destinations entry) (he : NoValueError e)
    (hfate : fate done.length = .lost) :
    RestoresOrRefuses files (.error e) s.restored ↔
      (∃ entry ∈ files.head?, ¬ Restorable destinations entry) ∨
        GoesThrough destinations fate files := by
  rw [or_iff_right (h.first_restorable hentry)]
  constructor
  · intro hrefuses
    have hrestored := hrefuses.2 fun message hmessage => he message (Except.error.inj hmessage)
    rw [h.restored] at hrestored
    exact absurd (congrArg List.length hrestored) h.length_lt.ne
  · intro hthrough
    rcases hthrough.2 _ h.length_lt with happlied | ⟨hlate, -⟩
    · cases hfate.symm.trans happlied
    · cases hfate.symm.trans hlate

/-- Where a request fails after it took effect, the restore is complete if it was the last one. -/
lemma Reached.late_iff (h : Reached destinations fate files done (entry :: later) s)
    (hentry : Restorable destinations entry) (he : NoValueError e)
    (hfate : fate done.length = .late) :
    RestoresOrRefuses files (.error e) (done ++ [entry]) ↔
      (∃ entry ∈ files.head?, ¬ Restorable destinations entry) ∨
        GoesThrough destinations fate files := by
  rw [or_iff_right (h.first_restorable hentry)]
  have hne : ∀ message, (.error e : Except Exc (List BackupFile)) ≠ .error (.valueError message) :=
    fun message hmessage => he message (Except.error.inj hmessage)
  constructor
  · intro hrefuses
    have hfiles := (hrefuses.2 hne).symm
    subst hfiles
    refine ⟨fun a ha => ?_, fun n hn => ?_⟩
    · rcases List.mem_append.mp ha with ha | ha
      · exact h.restorable a ha
      · rwa [List.mem_singleton.mp ha]
    · rw [List.length_append, List.length_singleton] at hn ⊢
      rcases Nat.lt_succ_iff_lt_or_eq.mp hn with hn | rfl
      · exact .inl (h.applied n hn)
      · exact .inr ⟨hfate, rfl⟩
  · intro hthrough
    rcases hthrough.2 _ h.length_lt with happlied | ⟨-, hlast⟩
    · cases hfate.symm.trans happlied
    · have hlater : later = [] := by
        rw [h.split, List.length_append, List.length_cons] at hlast
        exact List.eq_nil_of_length_eq_zero (by omega)
      refine ⟨fun hvalue => ?_, fun _ => by rw [h.split, hlater]⟩
      obtain ⟨message, hmessage⟩ := hvalue
      exact absurd hmessage (hne message)

end Stopped

section Sample

/-- A backup of a collection and of a file whose kind is unknown, both stored as they were. -/
def mixedBackup : Checkpoint where
  metadata := []
  manifest := .obj [("format_version", .int 1)]
  files := [⟨"qdrant_collection", "knowledge", "knowledge.snapshot", "a", 1⟩,
    ⟨"tarball", "logs", "logs.tar", "b", 1⟩]
  stored filename := if filename = "knowledge.snapshot" then some ⟨1, "a"⟩ else some ⟨1, "b"⟩

end Sample

end CyberBrain.Backup
