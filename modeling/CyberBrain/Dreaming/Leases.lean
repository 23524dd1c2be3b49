import CyberBrain.Dreaming.KeptResults

/-!
# Leases

`claim_next` leases a task to one client at a time. The token of the latest lease is the only one
that `submit` accepts, and the task goes to nobody else before that lease ends, unless it is
registered anew. Neither result needs clocks that agree or tokens that differ.
-/

namespace CyberBrain.Dreaming

open Python ReasonerProvider Tenancy

variable {py : Runtime}

/-- The call leases the task. -/
def InboxOp.Leases (s : InboxSystem) (op : InboxOp py) (id : String) : Prop :=
  ∃ lease, op.lease? s = some lease ∧ lease.task.taskId = id

/-- The call registers the task, with a run or on its own. -/
def InboxOp.Registers (s : InboxSystem) (op : InboxOp py) (id : String) : Prop :=
  ∃ reg, op.registration s = some reg ∧ ∃ request ∈ reg.requests, request.taskId = id

/-- A lease is on an open task, which it claims. -/
lemma claimNext_lease {s : InboxSystem} (hcons : s.Consistent)
    {bound : Option (CallerAuthority py)} {now : Instant} {token claimedBy : String}
    {leaseSeconds : ℤ} {lease : ReasonTaskLease}
    (h : (InboxOp.claimNext bound now token claimedBy leaseSeconds).lease? s = some lease) :
    ∃ row, s.inbox.task? lease.task.taskId = some row ∧ row.claimable now ∧
      lease.deadlineAt = row.deadlineAt ∧
      (s.step (.claimNext bound now token claimedBy leaseSeconds)).inbox.task? lease.task.taskId =
        some (row.claim lease now) := by
  simp only [InboxOp.lease?] at h
  rcases claimNext_cases bound now token claimedBy leaseSeconds s.inbox with
    ⟨-, hnot⟩ | ⟨row, lease', hok, hrow, hclaimable, htask, -, hdeadline, -, -, hwrite⟩
  · split at h
    · rename_i o ho
      exact absurd (h ▸ ho) (hnot lease)
    · cases h
  · rw [hok] at h
    cases h
    have hid : lease.task.taskId = row.taskId := by rw [htask, (hcons _ row hrow).request]
    exact ⟨row, hid ▸ hrow, hclaimable, hdeadline, (hwrite _).trans (if_pos hid)⟩

/-- What a lease does to its task. -/
lemma leased_task {s : InboxSystem} (hcons : s.Consistent) {op : InboxOp py}
    {lease : ReasonTaskLease} (h : op.lease? s = some lease) :
    ∃ (row : TaskRow) (now : Instant),
      (s.step op).inbox.task? lease.task.taskId = some (row.claim lease now) ∧
        lease.deadlineAt = row.deadlineAt := by
  cases op with
  | claimNext bound now token claimedBy leaseSeconds =>
    obtain ⟨row, -, -, hdeadline, hrow⟩ := claimNext_lease hcons h
    exact ⟨row, now, hrow, hdeadline⟩
  | _ => cases h

/-! ### The latest lease -/

/-- The lease is the last thing that happened to the task: nothing has leased or registered the
task since. -/
def LatestLease (ops : List (InboxOp py)) (id : String) (lease : ReasonTaskLease) : Prop :=
  ∃ before op after, ops = before ++ op :: after ∧
    op.lease? (InboxSystem.run {} before) = some lease ∧ lease.task.taskId = id ∧
      ∀ done op' rest, after = done ++ op' :: rest →
        ¬ op'.Leases (InboxSystem.run {} (before ++ op :: done)) id ∧
          ¬ op'.Registers (InboxSystem.run {} (before ++ op :: done)) id

lemma LatestLease.concat {ops : List (InboxOp py)} {id : String} {lease : ReasonTaskLease}
    (h : LatestLease ops id lease) {op : InboxOp py}
    (hlease : ¬ op.Leases (InboxSystem.run {} ops) id)
    (hreg : ¬ op.Registers (InboxSystem.run {} ops) id) : LatestLease (ops ++ [op]) id lease := by
  obtain ⟨before, first, after, rfl, hfirst, hid, hafter⟩ := h
  refine ⟨before, first, after ++ [op], by simp, hfirst, hid, fun done op' rest heq => ?_⟩
  rcases List.eq_nil_or_concat rest with rfl | ⟨rest, last, rfl⟩
  · obtain ⟨rfl, hop⟩ := List.append_inj' heq rfl
    cases hop
    exact ⟨hlease, hreg⟩
  · have hlast : (after ++ [op] : List (InboxOp py)) = (done ++ op' :: rest) ++ [last] := by
      simpa using heq
    exact hafter done op' rest (List.append_inj_left' hlast rfl)

/-- A claimed task is held under the latest lease. -/
lemma claimed_latestLease (ops : List (InboxOp py)) {id : String} {row : TaskRow}
    (hrow : (InboxSystem.run {} ops).inbox.task? id = some row) (hclaimed : row.status = .claimed) :
    ∃ lease, LatestLease ops id lease ∧ row.claimToken = some lease.claimToken ∧
      row.leaseUntil = some lease.leaseUntil ∧ row.deadlineAt = lease.deadlineAt := by
  induction ops using List.reverseRecOn generalizing row with
  | nil => exact absurd hrow (by simp [InboxSystem.run])
  | append_singleton ops op ih =>
    have hcons : (InboxSystem.run {} ops).Consistent :=
      foldl_invariant (fun _ op h => h.step op) (fun id row h => absurd h (by simp)) ops
    rw [InboxSystem.run_concat] at hrow
    by_cases hlease : op.Leases (InboxSystem.run {} ops) id
    · obtain ⟨lease, hlease, rfl⟩ := hlease
      obtain ⟨row', now, hrow', hdeadline⟩ := leased_task hcons hlease
      rw [hrow] at hrow'
      cases hrow'
      refine ⟨lease, ⟨ops, op, [], rfl, hlease, rfl, fun done op' rest h => ?_⟩, rfl, rfl,
        hdeadline.symm⟩
      simp at h
    by_cases hreg : op.Registers (InboxSystem.run {} ops) id
    · obtain ⟨reg, hreg, request, hmem, rfl⟩ := hreg
      obtain ⟨hnodup, -, hwrite⟩ := registration_spec hreg
      rw [hwrite, Registration.write_of_mem hnodup hmem] at hrow
      cases hrow
      -- the registration has left the task completed or pending
      rcases reg.row_status request _ with ⟨hdone, -⟩ | ⟨hpending, -⟩
      · exact absurd (hdone.symm.trans hclaimed) (by simp)
      · exact absurd (hpending.symm.trans hclaimed) (by simp)
    have hchange := taskChange_step (InboxSystem.run {} ops) op id
    rw [hrow] at hchange
    generalize ho : some row = o at hchange
    cases hchange with
    | keep =>
      obtain ⟨lease, hlatest, h⟩ := ih ho.symm hclaimed
      exact ⟨lease, hlatest.concat hlease hreg, h⟩
    | register h hmem hid => exact absurd ⟨_, h, _, hmem, hid⟩ hreg
    | claim h hrow' _ htask =>
      refine absurd ⟨_, h, ?_⟩ hlease
      rw [htask, (hcons id _ hrow').request, Inbox.taskId_of_task? hrow']
    | complete => cases ho; exact absurd hclaimed (by simp [TaskRow.complete])
    | mark => cases ho; exact absurd hclaimed (by simp)
    | retire => cases ho

/-! ### Reserved tasks -/

/-- At `now` nobody can be given the task: it is leased for longer, or not open. -/
def InboxSystem.Reserved (s : InboxSystem) (id : String) (now : Instant) : Prop :=
  ∀ row, s.inbox.task? id = some row → row.status ≠ .pending ∧
    (row.status = .claimed → ∃ lease, row.leaseUntil = some lease ∧ now < lease)

/-- A reserved task that can be claimed at another time has ended its lease by then. -/
lemma InboxSystem.Reserved.lt_of_claimable {s : InboxSystem} {id : String} {now now' : Instant}
    (h : s.Reserved id now) {row : TaskRow} (hrow : s.inbox.task? id = some row)
    (hclaimable : row.claimable now') : now < now' := by
  obtain ⟨hpending, hclaimed⟩ := h row hrow
  simp only [TaskRow.claimable, Bool.and_eq_true, Bool.or_eq_true, decide_eq_true_eq]
    at hclaimable
  rcases hclaimable.2 with h | ⟨h, hended⟩
  · exact absurd h hpending
  · obtain ⟨lease, hlease, hbefore⟩ := hclaimed h
    rw [hlease, Option.all_some, decide_eq_true_eq, Instant.iso_le_iso] at hended
    exact Nat.lt_of_lt_of_le hbefore hended

/-- Only a registration of the task ends a reservation. -/
lemma InboxSystem.Reserved.step {s : InboxSystem} {id : String} {now : Instant}
    (h : s.Reserved id now) {op : InboxOp py} (hreg : ¬ op.Registers s id) :
    (s.step op).Reserved id now := by
  intro row' hrow'
  have hchange := taskChange_step s op id
  rw [hrow'] at hchange
  generalize ho : some row' = o at hchange
  cases hchange with
  | keep => exact h row' ho.symm
  | register hreg' hmem hid => exact absurd ⟨_, hreg', _, hmem, hid⟩ hreg
  | claim _ hrow hclaimable _ _ _ hbefore =>
    cases ho
    refine ⟨by simp [TaskRow.claim], fun _ => ⟨_, rfl, ?_⟩⟩
    exact Nat.lt_trans (h.lt_of_claimable hrow hclaimable) hbefore
  | complete => cases ho; simp [TaskRow.complete]
  | mark => cases ho; simp
  | retire => cases ho

/-- A lease reserves its task until it ends. -/
lemma reserved_of_lease {s : InboxSystem} (hcons : s.Consistent) {op : InboxOp py}
    {lease : ReasonTaskLease} (h : op.lease? s = some lease) {now : Instant}
    (hnow : now < lease.leaseUntil) : (s.step op).Reserved lease.task.taskId now := by
  obtain ⟨row, _, hrow, -⟩ := leased_task hcons h
  intro row' hrow'
  rw [hrow] at hrow'
  cases hrow'
  exact ⟨by simp [TaskRow.claim], fun _ => ⟨_, rfl, hnow⟩⟩

/-- A reserved task is not handed out. -/
lemma InboxSystem.Reserved.not_leases {s : InboxSystem} {id : String} {now : Instant}
    (h : s.Reserved id now) (hcons : s.Consistent) (bound : Option (CallerAuthority py))
    (token claimedBy : String) (leaseSeconds : ℤ) :
    ¬ (InboxOp.claimNext bound now token claimedBy leaseSeconds).Leases s id := by
  rintro ⟨lease, hlease, rfl⟩
  obtain ⟨row, hrow, hclaimable, -⟩ := claimNext_lease hcons hlease
  exact Nat.lt_irrefl _ (h.lt_of_claimable hrow hclaimable)

/-! ### Exclusive leases -/

variable (py) in
/-- At `now` the token makes some `submit` for the task succeed. -/
def InboxSystem.Accepts (s : InboxSystem) (id token : String) (now : Instant) : Prop :=
  ∃ (bound : Option (CallerAuthority py)) (taskId claimToken : String)
    (claims : Except Exc (List ReasonTaskClaim)) (reply : SubmitReply),
    strip taskId = id ∧ strip claimToken = token ∧
      (submit bound now taskId claimToken claims s.inbox).1 = .ok reply

/-- An accepted token is that of a claimed task, within its lease and its deadline. -/
lemma InboxSystem.Accepts.row {s : InboxSystem} {id token : String} {now : Instant}
    (h : s.Accepts py id token now) : ∃ row lease, s.inbox.task? id = some row ∧
      row.status = .claimed ∧ row.claimToken = some token ∧ row.leaseUntil = some lease ∧
        now < lease ∧ now < row.deadlineAt := by
  obtain ⟨bound, taskId, claimToken, claims, reply, rfl, rfl, hok⟩ := h
  rcases submit_cases bound now taskId claimToken claims s.inbox with
    ⟨-, hnot⟩ | ⟨row, lease, result, hrow, hclaimed, htoken, hlease, hbefore, hdeadline, -⟩
  · exact absurd hok (hnot reply)
  · exact ⟨row, lease, hrow, hclaimed, htoken, hlease, hbefore, hdeadline⟩

lemma InboxSystem.run_append (s : InboxSystem) (ops ops' : List (InboxOp py)) :
    s.run (ops ++ ops') = (s.run ops).run ops' :=
  List.foldl_append

lemma InboxSystem.run_cons (s : InboxSystem) (op : InboxOp py) (ops : List (InboxOp py)) :
    s.run (op :: ops) = (s.step op).run ops :=
  rfl

/-- In every state that clients reach, at most one token makes `submit` succeed for a task, and it
is the token of the latest lease, before its end and the deadline; and a task whose lease has not
ended is leased again only if it was registered in between. -/
theorem lease_exclusive (ops : List (InboxOp py)) (id : String) :
    (∀ now now' token token', (InboxSystem.run {} ops).Accepts py id token now →
      (InboxSystem.run {} ops).Accepts py id token' now' → token = token') ∧
    (∀ now token, (InboxSystem.run {} ops).Accepts py id token now →
      ∃ lease, LatestLease ops id lease ∧ lease.claimToken = token ∧ now < lease.leaseUntil ∧
        now < lease.deadlineAt) ∧
    ∀ before op between lease, ops = before ++ op :: between →
      op.lease? (InboxSystem.run {} before) = some lease → lease.task.taskId = id →
        ∀ (bound : Option (CallerAuthority py)) now token claimedBy leaseSeconds,
          now < lease.leaseUntil → (InboxOp.claimNext bound now token claimedBy leaseSeconds).Leases
            (InboxSystem.run {} ops) id →
          ∃ done op' rest, between = done ++ op' :: rest ∧
            op'.Registers (InboxSystem.run {} (before ++ op :: done)) id := by
  have hcons (ops : List (InboxOp py)) : (InboxSystem.run {} ops).Consistent :=
    foldl_invariant (fun _ op h => h.step op) (fun id row h => absurd h (by simp)) ops
  refine ⟨fun now now' token token' h h' => ?_, fun now token h => ?_, ?_⟩
  · obtain ⟨row, -, hrow, -, htoken, -⟩ := h.row
    obtain ⟨row', -, hrow', -, htoken', -⟩ := h'.row
    rw [hrow] at hrow'
    cases hrow'
    exact Option.some.inj (htoken.symm.trans htoken')
  · obtain ⟨row, until', hrow, hclaimed, htoken, huntil, hbefore, hdeadline⟩ := h.row
    obtain ⟨lease, hlatest, htoken', huntil', hdeadline'⟩ := claimed_latestLease ops hrow hclaimed
    rw [htoken] at htoken'
    rw [huntil] at huntil'
    cases huntil'
    exact ⟨lease, hlatest, (Option.some.inj htoken').symm, hbefore, hdeadline' ▸ hdeadline⟩
  · rintro before op between lease rfl hlease rfl bound now token claimedBy leaseSeconds hnow hnext
    by_contra hnone
    refine InboxSystem.Reserved.not_leases ?_ (hcons _) bound token claimedBy leaseSeconds hnext
    rw [InboxSystem.run_append, InboxSystem.run_cons]
    refine foldl_of_forall (I := fun _ => True)
      (P := fun s : InboxSystem => s.Reserved lease.task.taskId now)
      (C := fun s op => ¬ op.Registers s lease.task.taskId)
      (fun _ _ _ h hreg => h.step hreg) (fun _ _ _ => trivial) trivial
      (reserved_of_lease (hcons before) hlease hnow) fun done op' rest heq hreg => hnone ?_
    refine ⟨done, op', rest, heq, ?_⟩
    rwa [InboxSystem.run_append, InboxSystem.run_cons]

section Sample

/-- The sample task, leased for a minute. -/
def leasedRun : List (InboxOp Runtime.ascii) :=
  [samplePublish, .claimNext none (.ofMicros 1) "k1" "client" 60]

/-- The token of the lease is accepted. -/
theorem lease_exclusive_sample : leasedRun.length = 2 ∧
    (InboxSystem.run {} leasedRun).Accepts Runtime.ascii "t1" "k1" (.ofMicros 2) ∧
      ∃ lease, LatestLease leasedRun "t1" lease ∧ lease.claimToken = "k1" := by
  have haccepts : (InboxSystem.run {} leasedRun).Accepts Runtime.ascii "t1" "k1" (.ofMicros 2) := by
    have hok : (submit (none : Option (CallerAuthority Runtime.ascii)) (.ofMicros 2) "t1" "k1"
        (.ok []) (InboxSystem.run {} leasedRun).inbox).1.toOption.isSome = true := by
      decide +kernel
    obtain ⟨reply, hreply⟩ := Option.isSome_iff_exists.mp hok
    exact ⟨none, "t1", "k1", .ok [], reply, by decide, by decide, toOption_eq_some.mp hreply⟩
  obtain ⟨lease, hlatest, htoken, -⟩ := (lease_exclusive leasedRun "t1").2.1 _ _ haccepts
  exact ⟨rfl, haccepts, lease, hlatest, htoken⟩

end Sample

end CyberBrain.Dreaming
