import CyberBrain.Foundation.Program
import CyberBrain.Foundation.Run
import CyberBrain.Relations.Census

/-!
# The rollout of the relation index

`RelationMaintenance.apply` adds the projections that a quiesced collection lacks, against a
checkpoint. A rollout that aborts midway leaves a collection that hashes as before, and the next one
goes on from there.
-/

namespace CyberBrain.Relations

open Program Python Schemas Tenancy

variable {py : Runtime}

/-! ### The checkpoint -/

/-- A file of a backup, as the manifest names it. -/
structure BackupFile where
  kind : String
  source : String
  filename : String
  sha256 : String
  size : ℕ

/-- The size and the SHA-256 of a file on disk. -/
structure StoredFile where
  size : ℕ
  sha256 : String

/-- A checkpoint directory: `relation-census.json`, `manifest.json` with the files it names, and
the files that are there. -/
structure Checkpoint where
  metadata : List (String × Json)
  manifest : Json
  files : List BackupFile
  stored : String → Option StoredFile

/-- `BackupService._verify_manifest`. -/
def verifyManifest (checkpoint : Checkpoint) : Except Exc Unit :=
  forM checkpoint.files fun entry => do
    let file ← orRaise (checkpoint.stored entry.filename)
      (.valueError ("backup file missing: " ++ entry.filename))
    require (file.size = entry.size) (.valueError ("backup file size mismatch: " ++ entry.filename))
    require (file.sha256 = entry.sha256)
      (.valueError ("backup checksum mismatch: " ++ entry.filename))

/-! ### The rollout -/

/-- What a rollout works on: the points and the payload indexes of the Knowledge collection, and how
many writes it has made. -/
structure RolloutState where
  points : StoredPoints
  indexes : List (String × String) := []
  writes : ℕ := 0

/-- The point with the projection of its record. -/
def withIndex (p : StoredPoint) (r : ScannedRecord) : StoredPoint :=
  { p with extensions := some (.obj (r.extensions ++ [(indexKey, projectionDump r.projection)])) }

namespace RelationMaintenance

variable (m : RelationMaintenance py)

/-- The `schema_version` of metadata, when it is an integer. -/
def schemaVersion (metadata : List (String × Json)) : Option ℤ :=
  match metadata.lookup "schema_version" with
  | some (.int version) => some version
  | _                   => none

/-- The metadata of a checkpoint name what is rolled out. -/
def Matches (checkpoint : Checkpoint) (expected : String) : Prop :=
  let names (key text : String) := (checkpoint.metadata.lookup key).map Json.value = some (.str text)
  schemaVersion checkpoint.metadata = some 1 ∧ names "source_hash" expected ∧
    names "knowledge_collection" m.collection ∧
    names "episodic_collection" m.episodicCollection ∧
    names "manifest_hash" (fingerprint py checkpoint.manifest)

instance (checkpoint : Checkpoint) (expected : String) : Decidable (m.Matches checkpoint expected) :=
  inferInstanceAs (Decidable (_ ∧ _ ∧ _ ∧ _ ∧ _))

/-- `_quiesced`. -/
def quiesced (writersQuiesced : Bool) : Except Exc Unit :=
  require (writersQuiesced = true)
    (.configurationError "relation rollout requires quiesced canonical writers")

/-- The collections that a checkpoint covers. -/
def coveredCollections (checkpoint : Checkpoint) : Finset String :=
  ((checkpoint.files.filter (·.kind = "qdrant_collection")).map (·.source)).toFinset

/-- What `apply` checks before it reads the collection. -/
def admitApply (checkpoint : Checkpoint) (expected : String) (writersQuiesced : Bool) :
    Except Exc Unit := do
  quiesced writersQuiesced
  requireReviewAuthority m.bound
  let _ ← enforceOperation m.bound .knowledgeWrite fun _ => none
  require (m.Matches checkpoint expected)
    (.configurationError "relation checkpoint does not match rollout source")
  verifyManifest checkpoint
  require (coveredCollections checkpoint = {m.collection, m.episodicCollection})
    (.configurationError "relation checkpoint must cover both canonical collections")

section Writes

variable (fate : ℕ → Fate)

/-- A write request, with the fate of the writes of the run. -/
def request (f : RolloutState → RolloutState) : Program RolloutState Exc Unit :=
  Program.write (fun s => fate s.writes) (fun s => { f s with writes := s.writes + 1 })
    (.storageError "Qdrant request failed")

/-- `create_payload_index`. -/
def createPayloadIndex (index : String × String) : Program RolloutState Exc Unit :=
  request fate fun s => { s with indexes := index :: s.indexes }

/-- `verify_indexes`. -/
def verifyIndexes (indexes : List (String × String)) : Except Exc Unit :=
  require (∀ index ∈ indexFields, indexes.lookup index.1 = some index.2)
    (.configurationError "relation payload indexes missing; prepare indexes required")

/-- `prepare_indexes`. -/
def prepareIndexes : Program RolloutState Exc Unit := do
  ofExcept (requireReviewAuthority m.bound)
  let _ ← ofExcept (enforceOperation m.bound .knowledgeGet fun _ => none)
  forEach (createPayloadIndex fate) indexFields
  let indexes ← reads (·.indexes)
  ofExcept (verifyIndexes indexes)

/-- `set_payload` of the extensions of a point. -/
def setExtensions (id : Uuid) (extensions : List (String × Json)) :
    Program RolloutState Exc Unit :=
  request fate fun s => { s with
    points := s.points.modify id (fun p => { p with extensions := some (.obj extensions) })
      fun _ h => h }

/-- The turn of a record in `apply`. -/
def addIndex (r : ScannedRecord) : Program RolloutState Exc Unit :=
  if HasIndex r.extensions then pure ()
  else setExtensions fate r.id (r.extensions ++ [(indexKey, projectionDump r.projection)])

/-- `apply`. -/
def apply (checkpoint : Checkpoint) (expected : String) (writersQuiesced : Bool) :
    Program RolloutState Exc RelationCensus := do
  ofExcept (m.admitApply checkpoint expected writersQuiesced)
  let scanned ← reads fun s => m.scan s.points
  let (before, records) ← ofExcept scanned
  ofExcept (require (before.sourceHash = expected)
    (.conflictError "canonical data changed; capture a fresh relation checkpoint"))
  m.prepareIndexes fate
  forEach (addIndex fate) records
  let scanned ← reads fun s => m.scan s.points
  let (after, _) ← ofExcept scanned
  ofExcept (require (after.sourceHash = before.sourceHash ∧ after.records = before.records ∧
      after.missing = 0) (.conflictError "relation projection verification failed"))
  pure after

/-- A run of `apply` counts its own writes. -/
def run (checkpoint : Checkpoint) (expected : String) (s : RolloutState) :
    Except Exc RelationCensus × RolloutState :=
  m.apply fate checkpoint expected true { s with writes := 0 }

end Writes

/-! ### Half-projected collections -/

variable {m} {points : StoredPoints} {scope : Filter}

lemma hasIndex_append (extensions : List (String × Json)) (v : Json) :
    HasIndex (extensions ++ [(indexKey, v)]) := by
  simp [HasIndex]

lemma withoutIndex_append (extensions : List (String × Json)) (v : Json) :
    withoutIndex (extensions ++ [(indexKey, v)]) = withoutIndex extensions := by
  simp [withoutIndex]

/-- The record after its projection is added. -/
def indexed (r : ScannedRecord) : ScannedRecord :=
  { r with extensions := r.extensions ++ [(indexKey, projectionDump r.projection)] }

lemma bundleFromExtensions_append (schema : PayloadSchema) (extensions : List (String × Json))
    (v : Json) : bundleFromExtensions py schema (extensions ++ [(indexKey, v)]) =
      bundleFromExtensions py schema extensions := by
  have hlookup : [(indexKey, v)].lookup "relations" = none := rfl
  simp only [bundleFromExtensions, List.lookup_append, hlookup, Option.or_none]

lemma lookup_append {extensions : List (String × Json)} (hlacks : ¬ HasIndex extensions)
    (v : Json) : (extensions ++ [(indexKey, v)]).lookup indexKey = some v := by
  have hnone : extensions.lookup indexKey = none := by
    rw [Option.eq_none_iff_forall_not_mem]
    intro w hw
    exact hlacks (lookup_isSome.mp (Option.isSome_iff_exists.mpr ⟨w, hw⟩))
  simp [List.lookup_append, hnone]

/-- A payload validates with other extensions. -/
lemma canonicalPayload_extensions {schema : PayloadSchema} {p : StoredPoint}
    {payload : CanonicalPayload} (h : canonicalPayload schema p = .ok payload)
    (items : List (String × Json)) :
    canonicalPayload schema { p with extensions := some (.obj items) } =
      .ok { payload with extensions := items } := by
  obtain ⟨_, -, h⟩ := bind_eq_ok.mp h
  obtain ⟨entity, hentity, h⟩ := bind_eq_ok.mp h
  cases h
  exact bind_eq_ok.mpr ⟨items, rfl, bind_eq_ok.mpr ⟨entity, hentity, rfl⟩⟩

/-- A record without a projection scans alike once it has one. -/
lemma scanPoint_withIndex {schema : PayloadSchema} {p : StoredPoint} {r : ScannedRecord}
    (h : scanPoint py schema p = .ok r) (hlacks : ¬ HasIndex r.extensions) :
    scanPoint py schema (withIndex p r) = .ok (indexed r) := by
  obtain ⟨payload, hpayload, h⟩ := bind_eq_ok.mp h
  obtain ⟨bundle, hbundle, h⟩ := bind_eq_ok.mp h
  obtain ⟨projection, hprojection, h⟩ := bind_eq_ok.mp h
  obtain ⟨_, -, h⟩ := bind_eq_ok.mp h
  cases h
  refine bind_eq_ok.mpr ⟨_, canonicalPayload_extensions hpayload _, bind_eq_ok.mpr ⟨bundle, ?_,
    bind_eq_ok.mpr
      ⟨projection, hprojection, bind_eq_ok.mpr ⟨(), ?_, ?_⟩⟩⟩⟩
  · rw [bundleFromExtensions_append]
    exact hbundle
  · rw [require_eq_ok, lookup_append hlacks]
    exact fun _ => rfl
  · rw [withoutIndex_append]
    rfl

variable (m) in
/-- The point after a rollout. -/
def rolled (p : StoredPoint) : StoredPoint :=
  match scanPoint py m.schema p with
  | .ok r    => if HasIndex r.extensions then p else withIndex p r
  | .error _ => p

lemma rolled_of_lacks {p : StoredPoint} {r : ScannedRecord}
    (h : scanPoint py m.schema p = .ok r) (hlacks : ¬ HasIndex r.extensions) :
    m.rolled p = withIndex p r := by
  simp only [rolled, h, if_neg hlacks]

lemma rolled_of_hasIndex {p : StoredPoint} {r : ScannedRecord}
    (h : scanPoint py m.schema p = .ok r) (hindex : HasIndex r.extensions) : m.rolled p = p := by
  simp only [rolled, h, if_pos hindex]

lemma rolled_cases (p : StoredPoint) : m.rolled p = p ∨ ∃ r, scanPoint py m.schema p = .ok r ∧
    ¬ HasIndex r.extensions ∧ m.rolled p = withIndex p r := by
  rcases h : scanPoint py m.schema p with e | r
  · simp [rolled, h]
  · by_cases hindex : HasIndex r.extensions
    · exact .inl (rolled_of_hasIndex h hindex)
    · exact .inr ⟨r, rfl, hindex, rolled_of_lacks h hindex⟩

@[simp] lemma rolled_id (p : StoredPoint) : (m.rolled p).id = p.id := by
  rcases m.rolled_cases p with h | ⟨r, -, -, h⟩
  · rw [h]
  · rw [h]
    rfl

@[simp] lemma rolled_payload (p : StoredPoint) : (m.rolled p).payload = p.payload := by
  rcases m.rolled_cases p with h | ⟨r, -, -, h⟩
  · rw [h]
  · rw [h]
    rfl

variable (m) in
/-- A point when a rollout has come to some of the ids that match. -/
def mark (scope : Filter) (done : List Uuid) (p : StoredPoint) : StoredPoint :=
  if (scanFilter scope).accepts p.fields ∧ p.id ∈ done then m.rolled p else p

lemma mark_cases (scope : Filter) (done : List Uuid) (p : StoredPoint) :
    m.mark scope done p = p ∨ m.mark scope done p = m.rolled p := by
  unfold mark
  split_ifs
  · exact .inr rfl
  · exact .inl rfl

@[simp] lemma mark_id (scope : Filter) (done : List Uuid) (p : StoredPoint) :
    (m.mark scope done p).id = p.id := by
  rcases m.mark_cases scope done p with h | h
  · rw [h]
  · rw [h, rolled_id]

@[simp] lemma mark_fields (scope : Filter) (done : List Uuid) (p : StoredPoint) :
    (m.mark scope done p).fields = p.fields := by
  unfold StoredPoint.fields
  rcases m.mark_cases scope done p with h | h
  · rw [h]
  · rw [h, rolled_payload]

variable (m) in
/-- A collection when a rollout has come to some of its ids. -/
def marked (scope : Filter) (points : StoredPoints) (done : List Uuid) : StoredPoints where
  rows := points.rows.map (m.mark scope done)
  nodup := by
    rw [List.map_map]
    exact (List.map_congr_left fun p _ => mark_id scope done p) ▸ points.nodup

variable (m) in
/-- The record of a point when a rollout has come to some ids. -/
def markRecord (done : List Uuid) (r : ScannedRecord) : ScannedRecord :=
  if r.id ∈ done ∧ ¬ HasIndex r.extensions then indexed r else r

lemma markRecord_cases (done : List Uuid) (r : ScannedRecord) :
    markRecord done r = r ∨ markRecord done r = indexed r := by
  unfold markRecord
  split_ifs
  · exact .inr rfl
  · exact .inl rfl

@[simp] lemma markRecord_id (done : List Uuid) (r : ScannedRecord) :
    (markRecord done r).id = r.id := by
  rcases markRecord_cases done r with h | h
  · rw [h]
  · rw [h]
    rfl

@[simp] lemma markRecord_raw (done : List Uuid) (r : ScannedRecord) :
    (markRecord done r).raw = r.raw := by
  rcases markRecord_cases done r with h | h
  · rw [h]
  · rw [h]
    rfl

/-- A marked point scans to the marked record. -/
lemma scanPoint_mark {p : StoredPoint} {r : ScannedRecord} (h : scanPoint py m.schema p = .ok r)
    (hmatch : (scanFilter scope).accepts p.fields) (done : List Uuid) :
    scanPoint py m.schema (m.mark scope done p) = .ok (markRecord done r) := by
  have hid := scanPoint_id h
  by_cases hdone : p.id ∈ done
  · by_cases hindex : HasIndex r.extensions
    · simp only [mark, markRecord, hmatch, hdone, hid, hindex, rolled_of_hasIndex h hindex]
      simpa using h
    · simp only [mark, markRecord, hmatch, hdone, hid, hindex, rolled_of_lacks h hindex]
      simpa using scanPoint_withIndex h hindex
  · simpa [mark, markRecord, hdone, hid] using h

lemma scanned_mark {l : List StoredPoint} {kept : List ScannedRecord}
    (h : List.Forall₂ (fun p r => scanPoint py m.schema p = .ok r) l kept)
    (hmatch : ∀ p ∈ l, (scanFilter scope).accepts p.fields) (done : List Uuid) :
    List.Forall₂ (fun p r => scanPoint py m.schema p = .ok r) (l.map (m.mark scope done))
      (kept.map (markRecord done)) := by
  induction h with
  | nil => exact .nil
  | cons hr _ ih =>
    obtain ⟨hp, hl⟩ := List.forall_mem_cons.mp hmatch
    exact .cons (scanPoint_mark hr hp done) (ih hl)

lemma matching_marked (done : List Uuid) :
    matching (m.marked scope points done) (scanFilter scope) =
      (matching points (scanFilter scope)).map (m.mark scope done) := by
  simp only [matching, marked, List.filter_map, Function.comp_def, mark_fields]

variable {kept : List ScannedRecord}

lemma Scans.mark (h : m.Scans (matching points (scanFilter scope)) kept) (done : List Uuid) :
    m.Scans (matching (m.marked scope points done) (scanFilter scope))
      (kept.map (markRecord done)) := by
  refine ⟨?_, by simpa using h.count, ?_⟩
  · rw [matching_marked]
    exact scanned_mark h.scanned (fun p hp => (List.mem_filter.mp hp).2) done
  · have hbytes : bytes py ∘ markRecord done = bytes py := by
      funext r
      simp only [Function.comp_apply, bytes, markRecord_raw]
    rw [totalBytes, List.map_map, hbytes]
    exact h.size

lemma sortRecords_mark (kept : List ScannedRecord) (done : List Uuid) :
    sortRecords (kept.map (markRecord done)) = (sortRecords kept).map (markRecord done) := by
  refine (List.map_insertionSort _ _ (markRecord done) kept fun a _ b _ => ?_).symm
  rw [markRecord_id, markRecord_id]

lemma sourceHash_mark (caller : CallerAuthority py) (records : List ScannedRecord)
    (done : List Uuid) :
    m.sourceHash caller (records.map (markRecord done)) = m.sourceHash caller records := by
  simp only [sourceHash, List.map_map, Function.comp_def, markRecord_id, markRecord_raw]

variable {caller : CallerAuthority py} {expected : String} {d done : List Uuid}

variable (m) in
/-- A collection whose census is the one of a checkpoint. -/
structure HasCensus (points : StoredPoints) (expected : String) (scope : Filter)
    (caller : CallerAuthority py) (kept : List ScannedRecord) : Prop where
  reads : conditions m.bound m.background false = .ok scope
  bound : m.bound = some caller
  review : CanReview m.bound
  scans : m.Scans (matching points (scanFilter scope)) kept
  hash : m.sourceHash caller (sortRecords kept) = expected

lemma HasCensus.of_scan (hscroll : m.scrollPage.Lawful) {census : RelationCensus}
    {records : List ScannedRecord} (h : m.scan points = .ok (census, records)) :
    ∃ scope caller kept, m.HasCensus points census.sourceHash scope caller kept := by
  have hscan := h
  obtain ⟨_, hreview, h⟩ := bind_eq_ok.mp h
  obtain ⟨scope, hscope, h⟩ := bind_eq_ok.mp h
  obtain ⟨caller, hcaller, -⟩ := bind_eq_ok.mp h
  rw [requireReviewAuthority, require_eq_ok] at hreview
  rw [orRaise_eq_ok] at hcaller
  obtain ⟨pages, hpages, hperm⟩ := hscroll points (scanFilter scope)
  obtain ⟨kept, hscans, rfl, rfl⟩ :=
    (scan_eq_ok hscope hcaller hreview hpages hperm).mp hscan
  exact ⟨scope, caller, kept, hscope, hcaller, hreview, hscans, rfl⟩

/-- A half-projected collection scans with the hash of the original. -/
lemma HasCensus.mark (h : m.HasCensus points expected scope caller kept) (done : List Uuid) :
    m.HasCensus (m.marked scope points done) expected scope caller
      (kept.map (markRecord done)) where
  reads := h.reads
  bound := h.bound
  review := h.review
  scans := h.scans.mark done
  hash := by rw [sortRecords_mark, sourceHash_mark, h.hash]

lemma HasCensus.scan (hscroll : m.scrollPage.Lawful)
    (h : m.HasCensus points expected scope caller kept) :
    ∃ pages, m.scan points = .ok (m.summary caller (sortRecords kept) pages, sortRecords kept) := by
  obtain ⟨pages, hpages, hperm⟩ := hscroll points (scanFilter scope)
  exact ⟨pages.length, (scan_eq_ok h.reads h.bound h.review hpages hperm).mpr
    ⟨kept, h.scans, rfl, rfl⟩⟩

/-- The point of a record of the census. -/
lemma HasCensus.point (h : m.HasCensus points expected scope caller kept) {r : ScannedRecord}
    (hr : r ∈ kept) : ∃ p ∈ points.rows, (scanFilter scope).accepts p.fields ∧
      scanPoint py m.schema p = .ok r := by
  obtain ⟨i, hi, rfl⟩ := List.getElem_of_mem hr
  have hlength := h.scans.scanned.length_eq
  have hmem := List.mem_filter.mp (List.getElem_mem (hlength ▸ hi))
  exact ⟨_, hmem.1, hmem.2, h.scans.scanned.get (hlength ▸ hi) hi⟩

lemma mark_of_mem {p : StoredPoint} (hmatch : (scanFilter scope).accepts p.fields)
    (hdone : p.id ∈ done) : m.mark scope done p = m.rolled p :=
  if_pos ⟨hmatch, hdone⟩

lemma mark_cons_of_ne {p : StoredPoint} {id : Uuid} (h : p.id ≠ id) :
    m.mark scope (id :: done) p = m.mark scope done p := by
  simp only [mark, List.mem_cons, h, false_or]

/-- A mark on a point that needs none changes nothing. -/
lemma marked_cons {p : StoredPoint} (hp : p ∈ points.rows)
    (h : m.rolled p = p ∨ (scanFilter scope).accepts p.fields ∧ p.id ∈ done) :
    m.marked scope points (p.id :: done) = m.marked scope points done := by
  simp only [marked, Table.mk.injEq]
  refine List.map_congr_left fun q hq => ?_
  by_cases hid : q.id = p.id
  · obtain rfl := Table.eq_of_key_eq hq hp hid
    rcases h with h | ⟨hmatch, hdone⟩
    · rcases m.mark_cases scope (q.id :: done) q with h' | h' <;>
        rcases m.mark_cases scope done q with h'' | h'' <;> rw [h', h''] <;> simp [h]
    · rw [mark_of_mem hmatch hdone, mark_of_mem hmatch (List.mem_cons_of_mem _ hdone)]
  · exact mark_cons_of_ne hid

/-- Setting the extensions of a record that lacks its projection marks its point. -/
lemma modify_marked (done : List Uuid) {p : StoredPoint} (hp : p ∈ points.rows)
    (hmatch : (scanFilter scope).accepts p.fields) {r : ScannedRecord}
    (hr : scanPoint py m.schema p = .ok r) (hlacks : ¬ HasIndex r.extensions) :
    (m.marked scope points done).modify p.id (fun q => { q with
      extensions := some (.obj (r.extensions ++ [(indexKey, projectionDump r.projection)])) })
      (fun _ h => h) = m.marked scope points (p.id :: done) := by
  have hrolled := rolled_of_lacks hr hlacks
  simp only [Table.modify, marked, List.map_map, Table.mk.injEq]
  refine List.map_congr_left fun q hq => ?_
  rw [Function.comp_apply, mark_id]
  by_cases hid : q.id = p.id
  · obtain rfl := Table.eq_of_key_eq hq hp hid
    rw [if_pos rfl, mark_of_mem hmatch List.mem_cons_self, hrolled]
    rcases m.mark_cases scope done q with h | h
    · rw [h]
      rfl
    · rw [h, hrolled]
      rfl
  · rw [if_neg hid, mark_cons_of_ne hid]

/-! ### Runs of the rollout -/

variable {fate : ℕ → Fate}

/-- A write of the run does not go through. -/
def Aborts (fate : ℕ → Fate) : Prop := ∃ n, fate n ≠ .applied

lemma request_triple {f : RolloutState → RolloutState} {P Q : RolloutState → Prop}
    (hf : ∀ u, P u → Q { f u with writes := u.writes + 1 }) :
    Triple P (request fate f) (fun _ => Q) fun _ u => Aborts fate ∧ (P u ∨ Q u) := by
  refine Triple.write (fun u hu _ => hf u hu) (fun u hu hlost => ?_) fun u hu hlate => ?_
  · exact ⟨⟨u.writes, by simp [hlost]⟩, .inl hu⟩
  · exact ⟨⟨u.writes, by simp [hlate]⟩, .inr (hf u hu)⟩

/-- The payload indexes are prepared unless the run aborts; no point changes. -/
lemma prepareIndexes_triple (hreview : CanReview m.bound)
    (hget : ∃ plan, enforceOperation m.bound .knowledgeGet (fun _ => none) = .ok plan)
    (c : StoredPoints) :
    Triple (fun u => u.points = c) (m.prepareIndexes fate) (fun _ u => u.points = c)
      fun _ u => Aborts fate ∧ u.points = c := by
  obtain ⟨plan, hplan⟩ := hget
  have hreviews : requireReviewAuthority m.bound = .ok () := by
    rwa [requireReviewAuthority, require_eq_ok]
  have hprogram : m.prepareIndexes fate =
      (forEach (createPayloadIndex fate) indexFields >>= fun _ =>
        reads (·.indexes) >>= fun indexes => ofExcept (verifyIndexes indexes)) := by
    simp only [prepareIndexes, hreviews, hplan, ofExcept_ok_bind]
  rw [hprogram]
  let created (indexes : List (String × String)) (u : RolloutState) : Prop :=
    u.points = c ∧ ∃ old, u.indexes = indexes.reverse ++ old
  refine Triple.bind (fun _ => created indexFields) ?_ fun _ =>
    Triple.reads_bind fun indexes => Triple.ofExcept ?_ ?_
  · refine (Triple.forEach (fun indexes _ => created indexes) (fun done index rest => ?_)
      indexFields).pre fun u hu => ⟨hu, u.indexes, rfl⟩
    refine (request_triple (Q := created (done ++ [index])) ?_).post (fun _ _ hu => hu) ?_
    · rintro u ⟨hu, old, hold⟩
      exact ⟨hu, old, by simp [hold]⟩
    · rintro - u ⟨haborts, ⟨hu, -⟩ | ⟨hu, -⟩⟩
      · exact ⟨haborts, hu⟩
      · exact ⟨haborts, hu⟩
  · rintro - - u ⟨⟨hu, -⟩, -⟩
    exact hu
  · rintro e he u ⟨⟨-, old, hold⟩, rfl⟩
    have hcreated : ∀ index ∈ indexFields,
        indexFields.reverse.lookup index.1 = some index.2 := by decide
    have hverified : verifyIndexes u.indexes = .ok () := by
      rw [verifyIndexes, require_eq_ok, hold]
      intro index hindex
      rw [List.lookup_append, hcreated index hindex, Option.some_or]
    rw [hverified] at he
    cases he

/-- The turn of a record leaves its point marked. -/
lemma addIndex_triple (h : m.HasCensus points expected scope caller kept) {r : ScannedRecord}
    (hr : r ∈ kept.map (markRecord d)) (hd : ∀ id ∈ d, id ∈ done) :
    Triple (fun u => u.points = m.marked scope points done) (addIndex fate r)
      (fun _ u => u.points = m.marked scope points (r.id :: done))
      fun _ u => Aborts fate ∧ ∃ done, u.points = m.marked scope points done := by
  obtain ⟨r, hkept, rfl⟩ := List.mem_map.mp hr
  obtain ⟨p, hp, hmatch, hscan⟩ := h.point hkept
  have hid := scanPoint_id hscan
  refine Triple.ite (fun hindex => ?_) fun hlacks => ?_
  · refine Triple.pure fun u hu => ?_
    rw [hu, markRecord_id, hid]
    refine (marked_cons hp ?_).symm
    by_cases hindex' : HasIndex r.extensions
    · exact .inl (rolled_of_hasIndex hscan hindex')
    · refine .inr ⟨hmatch, hd _ ?_⟩
      by_contra hnot
      simp [markRecord, hid, hnot] at hindex
      exact hindex' hindex
  · have hrecord : markRecord d r = r := by
      rcases markRecord_cases d r with heq | heq
      · exact heq
      · rw [heq] at hlacks
        exact absurd (hasIndex_append _ _) hlacks
    rw [hrecord] at hlacks ⊢
    have hmodify := modify_marked done hp hmatch hscan hlacks
    rw [← hid] at hmodify
    refine (request_triple (Q := fun u => u.points = m.marked scope points (r.id :: done))
      fun u hu => ?_).post (fun _ _ hu => hu) fun _ u hu => ?_
    · simp only [hu]
      exact hmodify
    · obtain ⟨haborts, hu | hu⟩ := hu
      · exact ⟨haborts, _, hu⟩
      · exact ⟨haborts, _, hu⟩

/-- Only the marks of matching points count. -/
lemma marked_congr (h : ∀ p ∈ matching points (scanFilter scope), p.id ∈ d ↔ p.id ∈ done) :
    m.marked scope points d = m.marked scope points done := by
  simp only [marked, Table.mk.injEq]
  refine List.map_congr_left fun p hp => ?_
  by_cases hmatch : (scanFilter scope).accepts p.fields
  · simp only [mark, h p (List.mem_filter.mpr ⟨hp, hmatch⟩)]
  · simp [mark, hmatch]

/-- The loop over the records of a census marks all of them. -/
lemma addIndexes_triple (h : m.HasCensus points expected scope caller kept) (d : List Uuid) :
    Triple (fun u => u.points = m.marked scope points d)
      (forEach (addIndex fate) (sortRecords (kept.map (markRecord d))))
      (fun _ u => u.points = m.marked scope points (kept.map (·.id)))
      fun _ u => Aborts fate ∧ ∃ done, u.points = m.marked scope points done := by
  let records := sortRecords (kept.map (markRecord d))
  have hmem : ∀ r ∈ records, r ∈ kept.map (markRecord d) :=
    fun r hr => (sortRecords_perm _).mem_iff.mp hr
  let I (did rest : List ScannedRecord) (u : RolloutState) : Prop :=
    (∀ r ∈ rest, r ∈ kept.map (markRecord d)) ∧ ∃ done, u.points = m.marked scope points done ∧
      (∀ id ∈ d, id ∈ done) ∧ ∀ r ∈ did, r.id ∈ done
  have hloop : Triple (I [] records) (forEach (addIndex fate) records) (fun _ => I records [])
      fun _ u => Aborts fate ∧ ∃ done, u.points = m.marked scope points done := by
    refine Triple.forEach I (fun did r rest => ?_) records
    refine Triple.of_forall ?_
    rintro u ⟨hrest, done, hu, hd, hdid⟩
    refine ((addIndex_triple h (hrest r List.mem_cons_self) hd).pre
      fun t (ht : t = u) => ht ▸ hu).post ?_ fun _ _ he => he
    intro _ v hv
    refine ⟨fun r' hr' => hrest r' (List.mem_cons_of_mem _ hr'), r.id :: done, hv, ?_, ?_⟩
    · exact fun id hid => List.mem_cons_of_mem _ (hd id hid)
    · intro r' hr'
      rcases List.mem_append.mp hr' with hr' | hr'
      · exact List.mem_cons_of_mem _ (hdid r' hr')
      · rw [List.mem_singleton.mp hr']
        exact List.mem_cons_self
  refine (hloop.pre fun u hu => ⟨hmem, d, hu, fun _ => id, by simp⟩).post ?_ fun _ _ he => he
  rintro - u ⟨-, done, hu, -, hdone⟩
  rw [hu]
  refine marked_congr fun p hp => ?_
  have hid : p.id ∈ kept.map (·.id) := h.scans.ids ▸ List.mem_map_of_mem hp
  obtain ⟨r, hr, heq⟩ := List.mem_map.mp hid
  have hrecord : markRecord d r ∈ records :=
    (sortRecords_perm _).mem_iff.mpr (List.mem_map_of_mem hr)
  have hmarked := hdone _ hrecord
  rw [markRecord_id, heq] at hmarked
  simp [hmarked, hid]

/-- Once every record is marked, none lacks its projection. -/
lemma missing_eq_zero (records : List ScannedRecord) (hall : ∀ r ∈ records, r.id ∈ done)
    (pages : ℕ) :
    (m.summary caller (sortRecords (records.map (markRecord done))) pages).missing = 0 := by
  simp only [summary, List.countP_eq_zero]
  intro r hr
  obtain ⟨r, hrecords, rfl⟩ := List.mem_map.mp ((sortRecords_perm _).mem_iff.mp hr)
  have hdone := hall r hrecords
  by_cases hindex : HasIndex r.extensions
  · simp [markRecord, hindex]
  · simpa [markRecord, hindex, hdone, indexed] using hasIndex_append r.extensions _

variable (fate) in
/-- A rollout of a half-projected collection completes it, unless it aborts midway. -/
theorem apply_triple (hscroll : m.scrollPage.Lawful)
    (h : m.HasCensus points expected scope caller kept) {checkpoint : Checkpoint}
    (hchecked : m.admitApply checkpoint expected true = .ok ())
    (hget : ∃ plan, enforceOperation m.bound .knowledgeGet (fun _ => none) = .ok plan)
    (d : List Uuid) :
    Triple (fun u => u.points = m.marked scope points d)
      (m.apply fate checkpoint expected true)
      (fun after u => u.points = m.marked scope points (kept.map (·.id)) ∧
        ∃ records, m.scan u.points = .ok (after, records))
      fun _ u => Aborts fate ∧ ∃ done, u.points = m.marked scope points done := by
  obtain ⟨pages, hbefore⟩ := (h.mark d).scan hscroll
  obtain ⟨pages', hafter⟩ := (h.mark (kept.map (·.id))).scan hscroll
  simp only [apply, hchecked, ofExcept_ok_bind]
  refine Triple.reads_bind fun scanned => Triple.of_forall ?_
  rintro u ⟨hu, rfl⟩
  rw [hu, hbefore]
  simp only [ofExcept_ok_bind]
  have hhash (done : List Uuid) (pages : ℕ) :
      (m.summary caller (sortRecords (kept.map (markRecord done))) pages).sourceHash = expected :=
    (h.mark done).hash
  have hexpected (e : Exc) : require (ε := Exc)
      ((m.summary caller (sortRecords (kept.map (markRecord d))) pages).sourceHash = expected) e =
        .ok () := by
    rw [require_eq_ok, hhash]
  rw [hexpected, ofExcept_ok_bind]
  refine Triple.bind (fun _ v => v.points = m.marked scope points d)
    (((prepareIndexes_triple h.review hget _).pre fun t (ht : t = u) => ht ▸ hu).post
      (fun _ _ hv => hv) fun _ _ hv => ⟨hv.1, d, hv.2⟩) fun _ => ?_
  refine Triple.bind _ (addIndexes_triple h d) fun _ => ?_
  refine Triple.reads_bind fun scanned => Triple.of_forall ?_
  rintro v ⟨hv, rfl⟩
  rw [hv, hafter]
  have hlength (done : List Uuid) : (sortRecords (kept.map (markRecord done))).length =
      kept.length := by
    rw [(sortRecords_perm _).length_eq, List.length_map]
  let census (done : List Uuid) : ℕ → RelationCensus :=
    m.summary caller (sortRecords (kept.map (markRecord done)))
  have hverified (e : Exc) : require (ε := Exc)
      ((census (kept.map (·.id)) pages').sourceHash = (census d pages).sourceHash ∧
        (census (kept.map (·.id)) pages').records = (census d pages).records ∧
        (census (kept.map (·.id)) pages').missing = 0) e = .ok () := by
    rw [require_eq_ok, hhash, hhash]
    exact ⟨rfl, (hlength _).trans (hlength _).symm,
      missing_eq_zero kept (fun r hr => List.mem_map_of_mem hr) pages'⟩
  simp only [ofExcept_ok_bind]
  refine Triple.ofExcept_bind (fun _ _ => Triple.pure ?_) fun e he => ?_
  · rintro w rfl
    exact ⟨hv, _, by rw [hv, hafter]⟩
  · cases he.symm.trans (hverified _)

variable (m) in
/-- A point as it was, or with the projection that its record lacked. -/
def Added (p q : StoredPoint) : Prop :=
  q = p ∨ ∃ r, scanPoint py m.schema p = .ok r ∧ ¬ HasIndex r.extensions ∧ q = withIndex p r

lemma marked_added (scope : Filter) (points : StoredPoints) (done : List Uuid) :
    List.Forall₂ m.Added points.rows (m.marked scope points done).rows := by
  rw [marked, List.forall₂_map_right_iff, List.forall₂_same]
  intro p _
  rcases m.mark_cases scope done p with h | h
  · exact .inl h
  · exact h ▸ m.rolled_cases p

lemma marked_nil (scope : Filter) (points : StoredPoints) : m.marked scope points [] = points := by
  obtain ⟨rows, hnodup⟩ := points
  simp only [marked, Table.mk.injEq]
  refine (List.map_congr_left fun p _ => ?_).trans (List.map_id rows)
  simp [mark]

variable (m) in
/-- Runs of `apply`, one after the other. -/
def runs (checkpoint : Checkpoint) (expected : String) (fates : List (ℕ → Fate))
    (s : RolloutState) : RolloutState :=
  fates.foldl (fun s fate => (m.run fate checkpoint expected s).2) s

/-- Runs leave the collection half projected. -/
lemma runs_marked (hscroll : m.scrollPage.Lawful)
    (h : m.HasCensus points expected scope caller kept) {checkpoint : Checkpoint}
    (hchecked : m.admitApply checkpoint expected true = .ok ())
    (hget : ∃ plan, enforceOperation m.bound .knowledgeGet (fun _ => none) = .ok plan)
    (fates : List (ℕ → Fate)) {s : RolloutState} (hs : s.points = points) :
    ∃ done, (m.runs checkpoint expected fates s).points = m.marked scope points done := by
  refine foldl_invariant (I := fun s : RolloutState => ∃ done, s.points = m.marked scope points done)
    (fun s fate ⟨done, hdone⟩ => ?_) ⟨[], by rw [hs, marked_nil]⟩ fates
  exact ((apply_triple fate hscroll h hchecked hget done).post
    (fun _ _ hu => ⟨_, hu.1⟩) fun _ _ hu => hu.2).always (s := { s with writes := 0 }) hdone

/-- A run that meets no fault completes the rollout. -/
lemma run_completes (hscroll : m.scrollPage.Lawful)
    (h : m.HasCensus points expected scope caller kept) {checkpoint : Checkpoint}
    (hchecked : m.admitApply checkpoint expected true = .ok ())
    (hget : ∃ plan, enforceOperation m.bound .knowledgeGet (fun _ => none) = .ok plan)
    {s : RolloutState} {done : List Uuid} (hs : s.points = m.marked scope points done) :
    ∃ after u records, m.run (fun _ => .applied) checkpoint expected s = (.ok after, u) ∧
      u.points = m.marked scope points (kept.map (·.id)) ∧
      m.scan u.points = .ok (after, records) := by
  have hnot : ¬ Aborts fun _ => Fate.applied := fun ⟨n, hn⟩ => hn rfl
  obtain ⟨after, u, hrun, hu, records, hscan⟩ :=
    ((apply_triple (fun _ => .applied) hscroll h hchecked hget done).post
      (fun _ _ hu => hu) fun _ _ hu => hnot hu.1).returns (s := { s with writes := 0 }) hs
  exact ⟨after, u, records, hrun, hu, hscan⟩

section Sample

lemma maintainerOperations_nonempty :
    ({OperationClass.adminReview, .read, .write} : Finset OperationClass).Nonempty :=
  Finset.insert_nonempty OperationClass.adminReview _

/-- An operator, who may review. -/
def maintainer : CallerAuthority Runtime.ascii where
  deploymentMode := .singleOwner
  grant :=
    { scope := .unrestricted
      operations := {.adminReview, .read, .write}
      operations_nonempty := maintainerOperations_nonempty }

/-- A repository that answers in one page. -/
def onePage : ScrollPage := fun points filter _ _ => (matching points filter, none)

lemma onePage_lawful : onePage.Lawful :=
  fun _ _ => ⟨_, .last rfl, by simp [matching]⟩

/-- A maintenance of payloads that are about one entity each. -/
def sampleMaintenance : RelationMaintenance Runtime.ascii where
  schema :=
    { entity := fun _ payload => match payload.lookup "entity_name" with
        | some (.str name) =>
          some ({ domain := "d", topic := "t", entityType := "e", entityName := name }, [], {})
        | _                => none
      relations := fun _ => .edges [] }
  scrollPage := onePage
  collection := "knowledge"
  episodicCollection := "episodes"
  maxRecords := 10
  maxPayloadBytes := 2048
  bound := some maintainer
  records_limit := by decide
  payload_limit := by decide

/-- A Knowledge point about an entity name. -/
def samplePoint (n : ℕ) (name : String) (extensions : Option Json) : StoredPoint where
  id := .ofNat n
  payload := [("record_type", .str "knowledge"), ("record_class", .str "knowledge"),
    ("entity_name", .str name)]
  extensions

/-- Two points without a projection, one of them without extensions. -/
def unprojected : RolloutState where
  points := ((Table.empty _).upsert (samplePoint 2 "b" none)).upsert
    (samplePoint 1 "a" (some (.obj [("source", .str "s")])))

def unprojectedHash : String :=
  match sampleMaintenance.scan unprojected.points with
  | .ok (census, _) => census.sourceHash
  | .error _        => ""

/-- A checkpoint of both collections. -/
def sampleCheckpoint : Checkpoint where
  metadata := [("schema_version", .int 1), ("source_hash", .str unprojectedHash),
    ("knowledge_collection", .str "knowledge"), ("episodic_collection", .str "episodes"),
    ("manifest_hash", .str (fingerprint Runtime.ascii .null))]
  manifest := .null
  files := [⟨"qdrant_collection", "knowledge", "k", "", 0⟩,
    ⟨"qdrant_collection", "episodes", "e", "", 0⟩]
  stored := fun _ => some ⟨0, ""⟩

/-- One run aborts before its second record, the next one at once. -/
def abortedRuns : List (ℕ → Fate) :=
  [fun n => if n = 5 then .lost else .applied, fun _ => .late]

end Sample

end RelationMaintenance

end CyberBrain.Relations
