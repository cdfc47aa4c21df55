import EditorFormat.Proofs.Session.Run

/-!
# Requests and their responses

Every queued request is pending, was answered by one response, or was given up, and is exactly one
of these. `Accounted` is the invariant behind this: over a whole run, the numbers that were queued
are those in the table, those that a response took from it and those that an expiry took from it.
`requests_settle_once` collects what follows for any run of a session with a worker.
-/

namespace EditorFormat

namespace Session

variable {σ : Type}

/-- The numbers that were queued increase, and each of them is accounted for: the table of pending
requests, the answered and the expired requests hold it once between them. -/
structure Accounted (session : Session σ) (history : History) : Prop where
  increasing : history.queued.Pairwise (· < ·)
  le_lastId : ∀ number ∈ history.queued, number ≤ session.lastId
  count_queued : ∀ number, history.queued.count number =
    session.pending.keys.count number + history.answered.count number +
      history.expired.count number

/-- What leaves a table without repeated numbers and what stays make up the table. -/
theorem count_leaving {before after : Session σ} (hnodup : before.pending.keys.Nodup)
    (hkept : after.pending.keys.Sublist before.pending.keys) (number : RequestId) :
    before.pending.keys.count number =
      after.pending.keys.count number + (before.leaving after).count number := by
  have hleaving : (before.leaving after).Nodup := List.filter_sublist.nodup hnodup
  rw [hnodup.count, (hkept.nodup hnodup).count, hleaving.count]
  by_cases hafter : number ∈ after.pending.keys
  · have hbefore := hkept.subset hafter
    simp [leaving, hafter, hbefore]
  · simp [leaving, hafter]

namespace Accounted

variable {session : Session σ} {history : History}

/-- No number is queued twice. -/
theorem count_queued_le_one (h : session.Accounted history) (number : RequestId) :
    history.queued.count number ≤ 1 :=
  List.nodup_iff_count.1 (h.increasing.imp Nat.ne_of_lt) number

/-- The table holds no number twice. -/
theorem nodup_pending (h : session.Accounted history) : session.pending.keys.Nodup :=
  List.nodup_iff_count.2 fun number => by
    have hcount := h.count_queued number
    have hle := h.count_queued_le_one number
    omega

/-- A pending request was queued. -/
theorem queued_of_pending (h : session.Accounted history) {number : RequestId}
    (hpending : number ∈ session.pending.keys) : number ∈ history.queued := by
  have hpos := List.count_pos_iff.2 hpending
  have hcount := h.count_queued number
  exact List.count_pos_iff.1 (by omega)

/-- The next number is not in the table. -/
theorem fresh (h : session.Accounted history) : session.lastId + 1 ∉ session.pending.keys :=
  fun hpending => Nat.not_succ_le_self _ (h.le_lastId _ (h.queued_of_pending hpending))

/-- A format command keeps the account: a queued job enters the table under a new number. -/
theorem format (h : session.Accounted history) (around : Surroundings) (scope : Scope)
    (id : FileId) :
    (session.after (.format around scope id)).Accounted
      (history ++ session.turn (.format around scope id)) := by
  obtain ⟨file, options, worker, -, -, -, hformat⟩ | hnothing :=
    session.formatIn_cases around scope id
  · have hqueued : (session.formatIn around scope id).1 = .queued (session.lastId + 1) := by
      rw [hformat]
    rw [turn_queued hqueued, after, hformat, History.append_def]
    refine ⟨?_, ?_, fun number => ?_⟩
    · refine List.pairwise_append.2 ⟨h.increasing, List.pairwise_singleton .., ?_⟩
      intro earlier hearlier number hnumber
      have hle := h.le_lastId earlier hearlier
      rw [List.mem_singleton.1 hnumber]
      exact Nat.lt_succ_of_le hle
    · intro number hnumber
      rcases List.mem_append.1 hnumber with hearlier | hlast
      · exact Nat.le_succ_of_le (h.le_lastId number hearlier)
      · exact Nat.le_of_eq (List.mem_singleton.1 hlast)
    · -- The new number is counted once among the queued ones and once in the table.
      have hput := (Entries.keys_put_perm
        ((scope.job id file options).awaited around.now) h.fresh).count_eq number
      have hcount := h.count_queued number
      simp only [List.count_append, List.append_nil, List.count_cons, List.count_nil] at hput ⊢
      omega
  · rw [turn_not_queued hnothing.ne_queued, after]
    simp only [History.append_def, List.append_nil]
    refine ⟨h.increasing, fun number hnumber => ?_, ?_⟩
    · exact Nat.le_trans (h.le_lastId number hnumber) hnothing.lastId_le
    · rw [hnothing.pending]
      exact h.count_queued

/-- A move keeps the account when it enters in the history whatever it takes from the table. -/
theorem leave (h : session.Accounted history) {later : Session σ} {turn : History}
    (hlast : later.lastId = session.lastId)
    (hkept : later.pending.keys.Sublist session.pending.keys) (hqueued : turn.queued = [])
    (hleft : ∀ number, turn.answered.count number + turn.expired.count number =
      (session.leaving later).count number) :
    later.Accounted (history ++ turn) := by
  rw [History.append_def, hqueued, List.append_nil]
  refine ⟨h.increasing, hlast.symm ▸ h.le_lastId, fun number => ?_⟩
  have hcount := h.count_queued number
  have htable := count_leaving h.nodup_pending hkept number
  have hturn := hleft number
  simp only [List.count_append]
  omega

/-- Every move keeps the account. -/
theorem after (h : session.Accounted history) (move : Move σ) :
    (session.after move).Accounted (history ++ session.turn move) := by
  cases move with
  | format around scope id => exact h.format around scope id
  | respond around response =>
    refine h.leave (lastId_handleResponse ..) ?_ rfl fun number => rfl
    rw [Session.after, pending_handleResponse, Entries.keys_remove]
    exact List.filter_sublist
  | expire around =>
    exact h.leave rfl (List.filter_sublist.map _) rfl fun number => Nat.zero_add _
  | elsewhere store editor notifier worker =>
    simp only [turn, History.append_def, List.append_nil]
    exact ⟨h.increasing, h.le_lastId, h.count_queued⟩

/-- Every run keeps the account. -/
theorem run (h : session.Accounted history) (moves : List (Move σ)) :
    (session.run moves).Accounted (history ++ session.history moves) := by
  induction moves generalizing session history with
  | nil => simpa [Session.run, Session.history, History.append_def] using h
  | cons move later ih =>
    have hlater := ih (h.after move)
    simp only [History.append_def, List.append_assoc] at hlater ⊢
    exact hlater

/-- Before anything is queued there is nothing to account for. -/
theorem nothing_queued (h : session.pending = []) : session.Accounted {} where
  increasing := .nil
  le_lastId := nofun
  count_queued number := by simp [h, Entries.keys]

/-- A run that begins with nothing queued accounts for all its requests. -/
theorem of_run (h : session.pending = []) (moves : List (Move σ)) :
    (session.run moves).Accounted (session.history moves) := by
  have hrun := (nothing_queued h).run moves
  simpa only [History.append_def, List.nil_append] using hrun

/-- The table, the answered and the expired requests hold each queued request once between them,
and no other. -/
theorem one_fate (h : session.Accounted history) (number : RequestId) :
    session.pending.keys.count number + history.answered.count number +
      history.expired.count number = if number ∈ history.queued then 1 else 0 := by
  rw [← h.count_queued number]
  split
  · rename_i hqueued
    have hpos := List.count_pos_iff.2 hqueued
    have hle := h.count_queued_le_one number
    omega
  · rename_i hnever
    exact List.count_eq_zero.2 hnever

/-- What is pending after a move under a number of before was pending before, and is the same. -/
theorem pending_before (h : session.Accounted history) {move : Move σ} {number : RequestId}
    {request : PendingRequest} (hold : number ≤ session.lastId)
    (hfound : (session.after move).pending.find? number = some request) :
    session.pending.find? number = some request := by
  cases move with
  | format around scope id =>
    obtain ⟨file, options, worker, -, -, -, hformat⟩ | hnothing :=
      session.formatIn_cases around scope id
    · have hother : number ≠ session.lastId + 1 := Nat.ne_of_lt (Nat.lt_succ_of_le hold)
      rw [Session.after, hformat] at hfound
      rwa [← Entries.find?_put_of_ne _ _ hother]
    · rwa [← hnothing.pending]
  | respond around response =>
    rw [Session.after, pending_handleResponse] at hfound
    -- The response takes its own request away, so what is still found is another one.
    have hother : number ≠ response.id := fun hsame => by
      rw [hsame, Entries.find?_remove_self] at hfound
      cases hfound
    rwa [← Entries.find?_remove_of_ne _ hother]
  | expire around =>
    exact Entries.find?_of_mem h.nodup_pending
      (List.mem_filter.1 (Entries.mem_of_find? hfound)).1
  | elsewhere store editor notifier worker => exact hfound

/-- A request that is still pending after a run is the one that was queued before it. -/
theorem pending_before_run (h : session.Accounted history) {moves : List (Move σ)}
    {number : RequestId} {request : PendingRequest} (hold : number ≤ session.lastId)
    (hfound : (session.run moves).pending.find? number = some request) :
    session.pending.find? number = some request := by
  induction moves generalizing session history with
  | nil => exact hfound
  | cons move later ih =>
    have holdafter := Nat.le_trans hold (lastId_le_after session move)
    exact h.pending_before hold (ih (h.after move) holdafter hfound)

/-- A request that was answered or given up is never pending again, nor answered or given up. -/
theorem settled_for_good (h : session.Accounted history) {number : RequestId}
    (hsettled : number ∈ history.answered ++ history.expired) (later : List (Move σ)) :
    number ∉ (session.run later).pending.keys ∧
      number ∉ (session.history later).answered ++ (session.history later).expired := by
  have hrun := h.run later
  have hcount := hrun.count_queued number
  have hle := hrun.count_queued_le_one number
  -- One request would be counted twice, but was queued at most once.
  have hbefore := List.count_pos_iff.2 hsettled
  simp only [History.append_def, List.count_append] at hcount hle hbefore
  refine ⟨List.count_eq_zero.1 (by omega), List.count_eq_zero.1 ?_⟩
  rw [List.count_append]
  omega

/-- A request that was answered or given up is not answered again. -/
theorem not_answered_later (h : session.Accounted history) {number : RequestId}
    (hsettled : number ∈ history.answered ++ history.expired) (later : List (Move σ)) :
    number ∉ (session.history later).answered :=
  fun hagain => (h.settled_for_good hsettled later).2 (List.mem_append_left _ hagain)

end Accounted

/-! ## What an expiry records -/

/-- The record of a request that was given up. -/
def timeoutEntry (session : Session σ) (around : Surroundings) (request : PendingRequest) :
    LogEntry :=
  ⟨request.fileId, request.fileName, .timeout, timeoutMessage session.timeout, around.stamp⟩

/-- The requests that were pending for too long at a time. -/
def staleAt (session : Session σ) (now : Nat) : Entries RequestId PendingRequest :=
  session.pending.filter fun entry => session.isStale now entry.2

/-- An expiry takes the stale requests from the table, and records one entry for each of them. -/
theorem expireStale_records {session : Session σ} (hnodup : session.pending.keys.Nodup)
    (around : Surroundings) :
    (session.turn (.expire around)).expired = (session.staleAt around.now).keys ∧
      (session.expireStale around).2.log = (session.staleAt around.now).foldl
        (fun log entry => log.record (session.timeoutEntry around entry.2)) session.log := by
  refine ⟨Eq.symm ?_, rfl⟩
  show List.map Prod.fst (List.filter _ session.pending) =
    List.filter _ (List.map Prod.fst session.pending)
  rw [List.filter_map]
  refine congrArg _ (List.filter_congr fun entry hentry => ?_)
  -- A fresh request with the number of a stale one would be that request.
  have hfresh : entry.1 ∈ (session.after (.expire around)).pending.keys ↔
      session.isStale around.now entry.2 = false := by
    constructor
    · intro hkept
      obtain ⟨kept, hmem, hnumber⟩ := List.mem_map.1 hkept
      obtain ⟨hkept, hfresh⟩ := List.mem_filter.1 hmem
      have hfound := Entries.find?_of_mem hnodup hkept
      rw [hnumber, Entries.find?_of_mem hnodup hentry] at hfound
      rw [Option.some.inj hfound]
      simpa using hfresh
    · intro hfresh
      exact List.mem_map_of_mem (List.mem_filter.2 ⟨hentry, by simp [hfresh]⟩)
  cases hstale : session.isStale around.now entry.2 <;> simp [hfresh, hstale]

/-! ## Which moves change the editor -/

/-- With a worker a format command changes nothing in the editor. -/
theorem editor_formatIn {session : Session σ} (h : session.isBackground = true)
    (around : Surroundings) (scope : Scope) (id : FileId) :
    (session.formatIn around scope id).2.editor = session.editor := by
  refine (session.formatIn_tells around scope id).1.editor_eq ?_
  obtain ⟨file, options, worker, -, -, -, hformat⟩ | hnothing :=
    session.formatIn_cases around scope id
  · rw [hformat]
    exact nofun
  · exact hnothing.ne_applied h

/-- A response that changes the editor is awaited. -/
theorem awaited_of_editor_ne {session : Session σ} {around : Surroundings}
    {response : WorkerResponse}
    (h : (session.handleResponse around response).2.editor ≠ session.editor) :
    response.id ∈ session.pending.keys := by
  refine Decidable.byContradiction fun hpending => h ?_
  rw [handleResponse_unawaited (Entries.find?_eq_none_iff.2 hpending)]

/-- A response takes its own request from the table, if it is there, and no other. -/
theorem mem_answered_respond {session : Session σ} {around : Surroundings}
    {response : WorkerResponse} {number : RequestId} :
    number ∈ (session.turn (.respond around response)).answered ↔
      number = response.id ∧ number ∈ session.pending.keys := by
  have hleft : number ∉ (session.pending.remove response.id).keys ↔
      (number ∈ session.pending.keys → number = response.id) := by
    rw [Entries.keys_remove]
    simp
  simp only [turn, leaving, after, pending_handleResponse, List.mem_filter, decide_eq_true_eq,
    hleft]
  constructor
  · intro h
    exact ⟨h.2 h.1, h.1⟩
  · intro h
    exact ⟨h.2, fun _ => h.1⟩

/-- A move that changes the editor for a request takes that request from the table. -/
theorem edited_sublist_answered (session : Session σ) (move : Move σ) :
    (session.turn move).edited.Sublist (session.turn move).answered := by
  cases move with
  | format around scope id =>
    rw [edited_turn_format]
    exact List.nil_sublist _
  | respond around response =>
    by_cases heditor : (session.after (.respond around response)).editor = session.editor
    · simp [turn, heditor]
    · have hawaited := awaited_of_editor_ne heditor
      have hedited : (session.turn (.respond around response)).edited = [response.id] := by
        simp [turn, heditor]
      rw [hedited, List.singleton_sublist]
      exact mem_answered_respond.2 ⟨rfl, hawaited⟩
  | expire around => exact List.nil_sublist _
  | elsewhere store editor notifier worker => exact .slnil

/-- In a run the editor is changed only for requests that are answered in it. -/
theorem history_edited_sublist (session : Session σ) (moves : List (Move σ)) :
    (session.history moves).edited.Sublist (session.history moves).answered := by
  induction moves generalizing session with
  | nil => exact .slnil
  | cons move later ih =>
    simp only [history, History.append_def]
    exact (session.edited_sublist_answered move).append (ih (session.after move))

/-! ## The fate of every request -/

/-- What holds of every request at the end of a run, and of whatever move comes next. -/
structure Correlated (first : Session σ) (moves : List (Move σ)) : Prop where
  increasing : (first.history moves).queued.Pairwise (· < ·)
  /-- The next number is above all that were given out, also to jobs that were never queued. -/
  next_number : ∀ around scope id number,
    ((first.run moves).formatIn around scope id).1 = .queued number →
      (first.run moves).lastId < number ∧
      (∀ earlier ∈ (first.history moves).queued, earlier < number) ∧
      number ∈ ((first.run moves).after (.format around scope id)).pending.keys
  /-- A queued request is pending, was answered by one response, or was given up once, and only one
  of these. -/
  one_fate : ∀ number,
    (first.run moves).pending.keys.count number + (first.history moves).answered.count number +
      (first.history moves).expired.count number =
        if number ∈ (first.history moves).queued then 1 else 0
  /-- A response is taken for the request with its number, and for no other. -/
  answers : ∀ around response number,
    number ∈ ((first.run moves).turn (.respond around response)).answered ↔
      number = response.id ∧ number ∈ (first.run moves).pending.keys
  stray : ∀ around response, response.id ∉ (first.run moves).pending.keys →
    (first.run moves).handleResponse around response = (.dropped, first.run moves)
  /-- An expiry gives up the requests that are too old, and records each of them once. -/
  expiry : ∀ around,
    ((first.run moves).turn (.expire around)).expired =
      ((first.run moves).staleAt around.now).keys ∧
    ((first.run moves).expireStale around).2.log = ((first.run moves).staleAt around.now).foldl
      (fun log entry => log.record ((first.run moves).timeoutEntry around entry.2))
      (first.run moves).log
  /-- No other move records a request as given up. -/
  no_other_timeout : ∀ move : Move σ, (∀ around, move ≠ .expire around) →
    ((first.run moves).after move).timeouts.Sublist (first.run moves).timeouts
  /-- Neither a format command nor an expiry changes the editor. -/
  edits : ∀ around, (∀ scope id,
    ((first.run moves).formatIn around scope id).2.editor = (first.run moves).editor) ∧
      ((first.run moves).expireStale around).2.editor = (first.run moves).editor
  /-- A request changes the editor at most once, when its response is taken. -/
  edited_once : ∀ number,
    (first.history moves).edited.count number ≤ (first.history moves).answered.count number ∧
      (first.history moves).answered.count number ≤ 1
  edited_never_again : ∀ number ∈ (first.history moves).answered ++ (first.history moves).expired,
    ∀ later, number ∉ ((first.run moves).history later).edited

/-- No move but an expiry records a request as given up. -/
theorem timeouts_after (session : Session σ) {move : Move σ} (h : ∀ around, move ≠ .expire around) :
    (session.after move).timeouts.Sublist session.timeouts := by
  cases move with
  | format around scope id => exact (session.formatIn_tells around scope id).1.timeouts_sublist
  | respond around response =>
    exact (session.handleResponse_tells around response).1.timeouts_sublist
  | expire around => exact absurd rfl (h around)
  | elsewhere store editor notifier worker => exact .refl _

/-- In every run of a session with a worker, whatever the order of its moves, each queued request
gets a number of its own and is settled once. A response is taken only for a request that is still
pending, so a request changes the editor at most once, and never after it was answered or given
up. -/
theorem requests_settle_once (store : Store) (hasSideButtons : Bool) (format : Formatter σ)
    (worker : Worker σ) (timeout : Nat) (moves : List (Move σ)) :
    Correlated (start store hasSideButtons format (.background worker) timeout) moves := by
  let first : Session σ := start store hasSideButtons format (.background worker) timeout
  have haccount : (first.run moves).Accounted (first.history moves) := .of_run rfl moves
  have hbackground : (first.run moves).isBackground = true := isBackground_run first moves
  refine ⟨haccount.increasing, ?_, haccount.one_fate, fun _ _ _ => mem_answered_respond, ?_,
    expireStale_records haccount.nodup_pending, fun _ => timeouts_after _, ?_, ?_, ?_⟩
  · intro around scope id number hqueued
    obtain ⟨file, options, worker, -, -, -, hformat⟩ | hnothing :=
      (first.run moves).formatIn_cases around scope id
    · have hnext : (first.run moves).lastId + 1 = number := by
        rw [hformat] at hqueued
        exact Disposition.queued.inj hqueued
      have habove : (first.run moves).lastId < number := hnext ▸ Nat.lt_succ_self _
      refine ⟨habove, fun earlier hearlier => ?_, ?_⟩
      · exact Nat.lt_of_le_of_lt (haccount.le_lastId earlier hearlier) habove
      · rw [Session.after, hformat, Entries.mem_keys_iff_find?, ← hnext]
        exact ⟨_, Entries.find?_put_self ..⟩
    · exact absurd hqueued (hnothing.ne_queued number)
  · intro around response hstray
    exact handleResponse_unawaited (Entries.find?_eq_none_iff.2 hstray) around
  · exact fun around => ⟨editor_formatIn hbackground around, rfl⟩
  · intro number
    have hfate := haccount.count_queued number
    have hqueued := haccount.count_queued_le_one number
    refine ⟨(history_edited_sublist first moves).count_le number, ?_⟩
    show (first.history moves).answered.count number ≤ 1
    omega
  · intro number hsettled later hedited
    exact haccount.not_answered_later hsettled later
      ((history_edited_sublist _ later).subset hedited)

end Session

end EditorFormat
