import CyberBrain.Relations.Storage

/-!
# The census of a collection

`RelationMaintenance` scans the Knowledge of a collection page by page. The census hashes the
payloads without their projections, so that a collection hashes as it did before its projections
were added.
-/

namespace CyberBrain.Relations

open Python Schemas Tenancy

variable {py : Runtime}

/-! ### Payloads -/

/-- A point as it is stored: its payload, with the extensions apart. -/
structure StoredPoint where
  id : Uuid
  payload : List (String × Json)
  extensions : Option Json := none

abbrev StoredPoints := Table StoredPoint.id

/-- The payload fields that filters match. -/
def StoredPoint.fields (p : StoredPoint) : Fields := fun key => p.payload.lookup key

/-- What pydantic makes of a payload: the entity that the payload of a record names, if it is a
valid one for the id, and the relations that an extension holds. -/
structure PayloadSchema where
  entity : Uuid → List (String × Json) → Option (EntityLabels × Context × IdentityValues)
  relations : Json → RawRelations

/-- What the census reads of a canonical payload. -/
structure CanonicalPayload where
  labels : EntityLabels
  context : Context
  values : IdentityValues
  extensions : List (String × Json)

/-- What the census keeps of a record. -/
structure ScannedRecord where
  id : Uuid
  raw : Json
  extensions : List (String × Json)
  projection : RelationIndex
  assertions : ℕ

/-- Extensions without their projection. -/
def withoutIndex (extensions : List (String × Json)) : List (String × Json) :=
  extensions.filter (·.1 ≠ indexKey)

/-- Extensions that carry a projection. -/
def HasIndex (extensions : List (String × Json)) : Prop := indexKey ∈ extensions.map (·.1)

instance (extensions : List (String × Json)) : Decidable (HasIndex extensions) :=
  inferInstanceAs (Decidable (_ ∈ _))

section Payloads

variable (schema : PayloadSchema)

/-- The extensions of a payload that validates: an object, or nothing. -/
def extensionItems : Option Json → Except Exc (List (String × Json))
  | none              => .ok []
  | some (.obj items) => .ok items
  | some _            => .error unavailable

/-- `_canonical_payload`. -/
def canonicalPayload (p : StoredPoint) : Except Exc CanonicalPayload := do
  let extensions ← extensionItems p.extensions
  let (labels, context, values) ← orRaise (schema.entity p.id p.payload) unavailable
  pure { labels, context, values, extensions }

variable (py) in
/-- `bundle_from_extensions`. -/
def bundleFromExtensions (extensions : List (String × Json)) : Except Exc (RelationBundle py) :=
  match extensions.lookup "relations" with
  | none     => .ok (.empty py)
  | some raw => RelationBundle.validate py (schema.relations raw)

variable (py) in
/-- The turn of one point in `_scan`. -/
def scanPoint (p : StoredPoint) : Except Exc ScannedRecord := do
  let payload ← canonicalPayload schema p
  let bundle ← bundleFromExtensions py schema payload.extensions
  let projection ← projectRelations payload.labels payload.context payload.values bundle
  require (HasIndex payload.extensions →
    canonicalJson py ((payload.extensions.lookup indexKey).getD .null) =
      canonicalJson py (projectionDump projection)) indexMissing
  pure {
    id := p.id
    raw := .obj (p.payload ++ [("extensions", .obj (withoutIndex payload.extensions))])
    extensions := payload.extensions
    projection
    assertions := bundle.edges.length }

end Payloads

/-! ### The scan -/

/-- The records of a scan so far, and the bytes of their payloads. -/
structure ScanState where
  records : List ScannedRecord := []
  size : ℕ := 0

structure RelationCensus where
  sourceHash : String
  records : ℕ
  missing : ℕ
  eligible : ℕ
  assertions : ℕ
  pages : ℕ

/-- `scroll_page`: the points of a page that match a filter, from an offset on, and the offset of
the next page. -/
abbrev ScrollPage := StoredPoints → Filter → ℕ → Option String → List StoredPoint × Option String

variable (py) in
/-- `RelationMaintenance`, with what it is called under. -/
structure RelationMaintenance where
  schema : PayloadSchema
  scrollPage : ScrollPage
  collection : String
  episodicCollection : String
  background : Bool := false
  maxRecords : ℕ
  maxPayloadBytes : ℕ
  bound : Option (CallerAuthority py)
  records_limit : 1 ≤ maxRecords ∧ maxRecords ≤ 50000
  payload_limit : 1024 ≤ maxPayloadBytes ∧ maxPayloadBytes ≤ 67108864

namespace RelationMaintenance

variable (m : RelationMaintenance py)

def capacityExceeded : Exc := .configurationError "relation census capacity exceeded"

variable (py) in
/-- The bytes of a payload. -/
def bytes (record : ScannedRecord) : ℕ := (canonicalJson py record.raw).utf8ByteSize

/-- The body of the loop over a page. -/
def addPoint (s : ScanState) (p : StoredPoint) : Except Exc ScanState := do
  let record ← scanPoint py m.schema p
  let size := s.size + bytes py record
  require (s.records.length < m.maxRecords ∧ size ≤ m.maxPayloadBytes) capacityExceeded
  pure { records := s.records ++ [record], size }

/-- The loop over the pages. A page with a continuation holds a point, so that a scan that does not
come to its end exceeds the capacity in as many pages as it may have records. -/
def scanPages (points : StoredPoints) (filter : Filter) :
    ℕ → Option String → List String → ScanState → Except Exc (ScanState × ℕ)
  | 0, _, _, _                   => .error capacityExceeded
  | fuel + 1, offset, offsets, s => do
    let (page, continuation) := m.scrollPage points filter 256 offset
    let s ← page.foldlM m.addPoint s
    match continuation with
    | none        => pure (s, 1)
    | some marker => do
      require (page ≠ [] ∧ marker ∉ offsets)
        (.configurationError "relation census continuation is inconsistent")
      let (s, pages) ← scanPages points filter fuel (some marker) (marker :: offsets) s
      pure (s, pages + 1)

/-- The source hash of records in the order of their ids. -/
def sourceHash (caller : CallerAuthority py) (records : List ScannedRecord) : String :=
  fingerprint py (.obj [("collection", .str m.collection),
    ("scope", .obj (caller.grant.scope.asDict.map fun (d, vs) => (d.text, .arr (vs.map .str)))),
    ("records", .arr (records.map fun r => .arr [.str r.id.text, r.raw]))])

/-- Whether a projection is of a record that can be indexed. -/
def isEligible : RelationIndex → Bool
  | .ineligible     => false
  | .eligible _ _ _ => true

/-- The filter of a scan. -/
def scanFilter (scope : Filter) : Filter := scope ++ knowledgeFilter

/-- Records in the order of their ids. -/
def sortRecords (records : List ScannedRecord) : List ScannedRecord :=
  records.insertionSort fun a b => a.id.text ≤ b.id.text

/-- The census of records in the order of their ids. -/
def summary (caller : CallerAuthority py) (records : List ScannedRecord) (pages : ℕ) :
    RelationCensus where
  sourceHash := m.sourceHash caller records
  records := records.length
  missing := records.countP fun r => ¬ HasIndex r.extensions
  eligible := records.countP fun r => isEligible r.projection
  assertions := (records.map (·.assertions)).sum
  pages := pages

/-- `_scan`. -/
def scan (points : StoredPoints) : Except Exc (RelationCensus × List ScannedRecord) := do
  requireReviewAuthority m.bound
  let scope ← conditions m.bound m.background false
  let caller ← orRaise m.bound unavailable
  let (s, pages) ← m.scanPages points (scanFilter scope) (m.maxRecords + 1) none [] {}
  let records := sortRecords s.records
  require (records.map (·.id)).Nodup
    (.conflictError "relation census contains duplicate point IDs")
  pure (m.summary caller records pages, records)

end RelationMaintenance

/-! ### Scans of a repository that pages as documented -/

/-- The pages of one scroll: each but the last holds a point and names the offset of the next, all
offsets are different, and together they are the matching points, each once. -/
inductive Pages (scroll : Option String → List StoredPoint × Option String) :
    Option String → List String → List (List StoredPoint) → Prop
  | last {offset : Option String} {offsets : List String} {page : List StoredPoint}
      (h : scroll offset = (page, none)) : Pages scroll offset offsets [page]
  | next {offset : Option String} {offsets : List String} {page : List StoredPoint}
      {marker : String} {pages : List (List StoredPoint)} (h : scroll offset = (page, some marker))
      (hpage : page ≠ []) (hmarker : marker ∉ offsets)
      (hrest : Pages scroll (some marker) (marker :: offsets) pages) :
      Pages scroll offset offsets (page :: pages)

/-- A scroll has no more pages than points, and one. -/
lemma Pages.length_le {scroll : Option String → List StoredPoint × Option String}
    {offset : Option String} {offsets : List String} {pages : List (List StoredPoint)}
    (h : Pages scroll offset offsets pages) : pages.length ≤ pages.flatten.length + 1 := by
  induction h with
  | last => simp
  | next _ hpage _ _ ih =>
    have := List.length_pos_of_ne_nil hpage
    simp only [List.length_cons, List.flatten_cons, List.length_append]
    omega

/-- The documented behaviour of `scroll_page`. -/
def ScrollPage.Lawful (scrollPage : ScrollPage) : Prop :=
  ∀ points filter, ∃ pages, Pages (scrollPage points filter 256) none [] pages ∧
    pages.flatten.Perm (points.rows.filter fun p => filter.accepts p.fields)

namespace RelationMaintenance

variable {m : RelationMaintenance py} {points : StoredPoints} {filter : Filter}

variable (m) in
/-- A point as the scan keeps it, and the state of the scan after it. -/
lemma addPoint_eq_ok {s t : ScanState} {p : StoredPoint} : m.addPoint s p = .ok t ↔
    ∃ record, scanPoint py m.schema p = .ok record ∧ s.records.length < m.maxRecords ∧
      s.size + bytes py record ≤ m.maxPayloadBytes ∧
      t = { records := s.records ++ [record], size := s.size + bytes py record } := by
  simp only [addPoint, bind_eq_ok, require_eq_ok]
  constructor
  · rintro ⟨record, hrecord, _, ⟨hlength, hsize⟩, heq⟩
    cases heq
    exact ⟨record, hrecord, hlength, hsize, rfl⟩
  · rintro ⟨record, hrecord, hlength, hsize, rfl⟩
    exact ⟨record, hrecord, (), ⟨hlength, hsize⟩, rfl⟩

variable (py) in
/-- The bytes of all payloads. -/
def totalBytes (records : List ScannedRecord) : ℕ := (records.map (bytes py)).sum

variable (m) in
/-- A scan of a list of points keeps each of them, within the capacity. -/
lemma foldlM_addPoint {l : List StoredPoint} {s t : ScanState}
    (hs : s.records.length ≤ m.maxRecords) (hsize : s.size ≤ m.maxPayloadBytes) :
    l.foldlM m.addPoint s = .ok t ↔
      ∃ records, List.Forall₂ (fun p r => scanPoint py m.schema p = .ok r) l records ∧
        s.records.length + records.length ≤ m.maxRecords ∧
        s.size + totalBytes py records ≤ m.maxPayloadBytes ∧
        t = { records := s.records ++ records, size := s.size + totalBytes py records } := by
  induction l generalizing s with
  | nil =>
    simp only [List.foldlM_nil, List.forall₂_nil_left_iff, exists_eq_left, totalBytes]
    constructor
    · intro h
      cases h
      exact ⟨hs, hsize, by simp⟩
    · rintro ⟨-, -, rfl⟩
      simp
      rfl
  | cons p l ih =>
    rw [List.foldlM_cons, bind_eq_ok]
    constructor
    · rintro ⟨mid, hmid, hrest⟩
      obtain ⟨record, hrecord, hlength, hbytes, rfl⟩ := m.addPoint_eq_ok.mp hmid
      obtain ⟨records, hrecords, hcount, htotal, rfl⟩ := (ih (by simp; omega) hbytes).mp hrest
      simp only [List.length_append, List.length_singleton] at hcount
      refine ⟨record :: records, .cons hrecord hrecords, ?_, ?_, ?_⟩
      · rw [List.length_cons]
        omega
      · simp only [totalBytes, List.map_cons, List.sum_cons] at htotal ⊢
        omega
      · simp [totalBytes, add_assoc]
    · rintro ⟨records, hrecords, hcount, htotal, rfl⟩
      cases hrecords with
      | @cons _ record _ records hrecord hrecords =>
        simp only [List.length_cons] at hcount
        simp only [totalBytes, List.map_cons, List.sum_cons] at htotal
        refine ⟨_, m.addPoint_eq_ok.mpr ⟨record, hrecord, by omega, by omega, rfl⟩, ?_⟩
        refine (ih (by simp; omega) (by simp only; omega)).mpr ⟨records, hrecords, ?_, ?_, ?_⟩
        · simp only [List.length_append, List.length_singleton]
          omega
        · simp only [totalBytes]
          omega
        · simp [totalBytes, add_assoc]

/-- The loop over the pages of a scroll is a scan of all their points. -/
lemma scanPages_eq_ok {offset : Option String} {offsets : List String}
    {pages : List (List StoredPoint)}
    (h : Pages (m.scrollPage points filter 256) offset offsets pages) {fuel : ℕ} {s t : ScanState}
    {n : ℕ} : m.scanPages points filter fuel offset offsets s = .ok (t, n) ↔
      pages.length ≤ fuel ∧ n = pages.length ∧ pages.flatten.foldlM m.addPoint s = .ok t := by
  induction h generalizing fuel s t n with
  | @last offset offsets page h =>
    cases fuel with
    | zero => simp [scanPages]
    | succ fuel =>
      simp only [scanPages, h, bind_eq_ok, List.length_singleton, List.flatten_singleton]
      constructor
      · rintro ⟨u, hu, heq⟩
        cases heq
        exact ⟨by omega, rfl, hu⟩
      · rintro ⟨-, rfl, ht⟩
        exact ⟨t, ht, rfl⟩
  | @next offset offsets page marker pages h hpage hmarker hrest ih =>
    cases fuel with
    | zero => simp [scanPages]
    | succ fuel =>
      simp only [scanPages, h, bind_eq_ok, require_eq_ok, List.length_cons, List.flatten_cons,
        List.foldlM_append]
      constructor
      · rintro ⟨u, hu, _, -, ⟨v, k⟩, hv, heq⟩
        cases heq
        obtain ⟨hlength, rfl, hfold⟩ := ih.mp hv
        exact ⟨by omega, rfl, u, hu, hfold⟩
      · rintro ⟨hlength, rfl, u, hu, ht⟩
        exact ⟨u, hu, (), ⟨hpage, hmarker⟩, (t, pages.length),
          ih.mpr ⟨by omega, rfl, ht⟩, rfl⟩

variable (m) in
/-- The points as the scan keeps them, within the capacity. -/
structure Scans (points : List StoredPoint) (records : List ScannedRecord) : Prop where
  scanned : List.Forall₂ (fun p r => scanPoint py m.schema p = .ok r) points records
  count : records.length ≤ m.maxRecords
  size : totalBytes py records ≤ m.maxPayloadBytes

/-- The points that a filter matches. -/
def matching (points : StoredPoints) (filter : Filter) : List StoredPoint :=
  points.rows.filter fun p => filter.accepts p.fields

variable {l l' : List StoredPoint} {records records' : List ScannedRecord}

lemma scanPoint_id {schema : PayloadSchema} {p : StoredPoint} {r : ScannedRecord}
    (h : scanPoint py schema p = .ok r) : r.id = p.id := by
  obtain ⟨payload, -, h⟩ := bind_eq_ok.mp h
  obtain ⟨bundle, -, h⟩ := bind_eq_ok.mp h
  obtain ⟨projection, -, h⟩ := bind_eq_ok.mp h
  obtain ⟨_, -, h⟩ := bind_eq_ok.mp h
  cases h
  rfl

lemma Scans.ids (h : m.Scans l records) : records.map (·.id) = l.map (·.id) := by
  rw [← List.forall₂_eq_eq_eq, List.forall₂_map_left_iff, List.forall₂_map_right_iff]
  exact h.scanned.flip.imp fun _ _ => scanPoint_id

/-- The order of the points does not matter. -/
lemma Scans.perm (h : m.Scans l records) (hperm : l'.Perm l) :
    ∃ records', m.Scans l' records' ∧ records'.Perm records := by
  obtain ⟨records', hscanned, hrecords⟩ := List.perm_comp_forall₂ hperm h.scanned
  refine ⟨records', ⟨hscanned, hrecords.length_eq ▸ h.count, ?_⟩, hrecords⟩
  rw [totalBytes, (hrecords.map _).sum_eq]
  exact h.size

lemma sortRecords_perm (records : List ScannedRecord) : (sortRecords records).Perm records :=
  List.perm_insertionSort _ _

/-- Records with different ids have one order. -/
lemma sortRecords_congr (hperm : records.Perm records') (hnodup : (records.map (·.id)).Nodup) :
    sortRecords records = sortRecords records' := by
  have hsorted (l : List ScannedRecord) :
      (sortRecords l).Pairwise fun a b => a.id.text ≤ b.id.text :=
    List.pairwise_insertionSort _ _
  have hsame : (sortRecords records).Perm (sortRecords records') :=
    ((sortRecords_perm _).trans hperm).trans (sortRecords_perm _).symm
  refine hsame.eq_of_pairwise (fun a b ha hb hab hba => ?_) (hsorted _) (hsorted _)
  have ha := (sortRecords_perm _).mem_iff.mp ha
  have hb := hperm.mem_iff.mpr ((sortRecords_perm _).mem_iff.mp hb)
  exact List.inj_on_of_nodup_map hnodup ha hb (Uuid.text_injective (le_antisymm hab hba))

/-- A scan returns when its checks pass and the points of its pages scan. -/
theorem scan_eq_ok {points : StoredPoints} {scope : Filter}
    (hscope : conditions m.bound m.background false = .ok scope) {caller : CallerAuthority py}
    (hcaller : m.bound = some caller) (hreview : CanReview m.bound)
    {pages : List (List StoredPoint)}
    (hpages : Pages (m.scrollPage points (scanFilter scope) 256) none [] pages)
    (hperm : pages.flatten.Perm (matching points (scanFilter scope)))
    {census : RelationCensus} {records : List ScannedRecord} :
    m.scan points = .ok (census, records) ↔
      ∃ kept, m.Scans (matching points (scanFilter scope)) kept ∧ records = sortRecords kept ∧
        census = m.summary caller records pages.length := by
  have hids : ((matching points (scanFilter scope)).map (·.id)).Nodup :=
    points.nodup.sublist (List.filter_sublist.map _)
  have hreviews : requireReviewAuthority m.bound = .ok () := by
    rwa [requireReviewAuthority, require_eq_ok]
  have horRaise : orRaise m.bound unavailable = .ok caller := by rwa [orRaise_eq_ok]
  simp only [scan, hreviews, hscope, horRaise, bind, Except.bind]
  change (m.scanPages points (scanFilter scope) (m.maxRecords + 1) none [] {} >>= _) = _ ↔ _
  rw [bind_eq_ok]
  constructor
  · rintro ⟨⟨t, n⟩, ht, hrest⟩
    obtain ⟨-, rfl, hfold⟩ := (scanPages_eq_ok hpages).mp ht
    obtain ⟨read, hread, hcount, hsize, rfl⟩ :=
      (m.foldlM_addPoint (Nat.zero_le _) (Nat.zero_le _)).mp hfold
    obtain ⟨_, -, heq⟩ := bind_eq_ok.mp hrest
    cases heq
    have hscans : m.Scans pages.flatten read :=
      ⟨hread, by simpa using hcount, by simpa using hsize⟩
    obtain ⟨kept, hkept, hsame⟩ := hscans.perm hperm.symm
    refine ⟨kept, hkept, ?_, rfl⟩
    exact (sortRecords_congr hsame (hkept.ids ▸ hids)).symm
  · rintro ⟨kept, hkept, rfl, rfl⟩
    obtain ⟨read, hread, hsame⟩ := hkept.perm hperm
    have hsorted : sortRecords read = sortRecords kept :=
      (sortRecords_congr hsame.symm (hkept.ids ▸ hids)).symm
    have hlength : pages.length ≤ m.maxRecords + 1 := by
      have := hpages.length_le
      have := hread.scanned.length_eq ▸ hread.count
      omega
    refine ⟨({ records := read, size := totalBytes py read }, pages.length),
      (scanPages_eq_ok hpages).mpr ⟨hlength, rfl, ?_⟩, bind_eq_ok.mpr ⟨(), ?_, ?_⟩⟩
    · refine (m.foldlM_addPoint (Nat.zero_le _) (Nat.zero_le _)).mpr ⟨read, hread.scanned, ?_⟩
      exact ⟨by simpa using hread.count, by simpa using hread.size, by simp⟩
    · rw [require_eq_ok, ((sortRecords_perm read).map _).nodup_iff, hread.ids,
        (hperm.map _).nodup_iff]
      exact hids
    · simp only [hsorted]
      rfl

end RelationMaintenance

end CyberBrain.Relations
