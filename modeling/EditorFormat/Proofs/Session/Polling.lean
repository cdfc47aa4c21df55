import EditorFormat.Proofs.Log.Locations
import EditorFormat.Proofs.Session.Alerts
import EditorFormat.Proofs.Session.Correlation

/-!
# Polling

A poll takes responses from the channel as long as there is one (`drain`), and then gives up the
stale requests as they come when the table is listed (`expireListed`). A table may be listed in any
order. What a poll does depends on this order only in the order of the new log entries: `Expires`
says what an expiry does, and `poll_handles_then_expires` that no request is given up whose response
was in the channel.
-/

namespace EditorFormat

/-! ## The message about a request that was given up -/

namespace Decimal

/-- A number is written without a colon. -/
theorem colon_notMem_toDigits (n : Nat) : ':' ∉ Nat.toDigits 10 n := fun h =>
  absurd (SourceLocation.isDigit_of_mem_toDigits h) (by decide)

/-- A float is written without a colon, unless the sign of its exponent has one. -/
theorem colon_notMem_writeMagnitude {style : FloatStyle} (hplus : ':' ∉ style.plus.toList)
    (float : Binary) : ':' ∉ (style.writeMagnitude float).toList := by
  unfold FloatStyle.writeMagnitude
  split
  · split <;> decide
  · generalize trimZeros 20 (shortest float) = decimal
    obtain ⟨number, exponent⟩ := decimal
    have hdigits := colon_notMem_toDigits number
    have htake (count : Nat) : ':' ∉ (Nat.toDigits 10 number).take count :=
      fun h => hdigits (List.mem_of_mem_take h)
    have hdrop (count : Nat) : ':' ∉ (Nat.toDigits 10 number).drop count :=
      fun h => hdigits (List.mem_of_mem_drop h)
    simp only
    split
    · -- by position: only digits, at most one point, and zeros
      split
      · split <;> simp [hdigits]
      · split
        · simp [htake, hdrop]
        · simp [hdigits]
    · have htail : ':' ∉ (Nat.toDigits 10 number).tail := fun h => hdigits (List.mem_of_mem_tail h)
      split <;> split <;> simp [htake, htail, hplus, colon_notMem_toDigits]

/-- A time is written without a colon. -/
theorem colon_notMem_seconds (nanoseconds : Nat) : ':' ∉ (seconds nanoseconds).toList := by
  have hplus : ':' ∉ secondsStyle.plus.toList := by
    show ':' ∉ "".toList
    simp
  rw [seconds]
  exact colon_notMem_writeMagnitude hplus _

end Decimal

namespace Entries

variable {κ α : Type} [DecidableEq κ]

/-- All entries are kept when no key is dropped. -/
theorem filter_notMem_nil (entries : Entries κ α) :
    entries.filter (fun entry => entry.1 ∉ ([] : List κ)) = entries :=
  List.filter_eq_self.2 fun _ _ => decide_eq_true List.not_mem_nil

/-- Keys are dropped one after the other or all at once. -/
theorem filter_remove (entries : Entries κ α) (key : κ) (keys : List κ) :
    (entries.remove key).filter (fun entry => entry.1 ∉ keys) =
      entries.filter fun entry => entry.1 ∉ key :: keys := by
  rw [remove, List.filter_filter]
  refine List.filter_congr fun entry _ => ?_
  rw [Bool.eq_iff_iff]
  simp only [Bool.and_eq_true, decide_eq_true_eq, List.mem_cons, not_or, and_comm]

end Entries

namespace ErrorLog

/-- Failures that are recorded one after the other come before the others, the latest one first. -/
theorem entries_foldl_record {log : ErrorLog} (h : log.entries.length ≤ capacity)
    (entries : List LogEntry) :
    (entries.foldl record log).entries = (entries.reverse ++ log.entries).take capacity := by
  induction entries generalizing log with
  | nil => exact (List.take_of_length_le h).symm
  | cons entry later ih =>
    rw [List.foldl_cons, ih (length_record_le log entry), record, List.reverse_cons,
      List.append_assoc, List.singleton_append]
    simp only [List.take_append, List.take_take, Nat.min_eq_left (Nat.sub_le ..)]

/-- The log never holds more than its capacity. -/
theorem length_foldl_record_le {log : ErrorLog} (h : log.entries.length ≤ capacity)
    (entries : List LogEntry) : (entries.foldl record log).entries.length ≤ capacity := by
  rw [entries_foldl_record h]
  exact List.length_take_le ..

end ErrorLog

/-- A step keeps the log within its capacity. -/
theorem Alerts.Step.length_log_le {before after : Alerts} (h : Step before after)
    (hbefore : before.log.entries.length ≤ ErrorLog.capacity) :
    after.log.entries.length ≤ ErrorLog.capacity := by
  cases h with
  | fail entries hentries opensLog => exact ErrorLog.length_foldl_record_le hbefore entries
  | clear file => exact Nat.le_trans (List.length_filter_le ..) hbefore
  | showLog => exact hbefore
  | hideLog => exact hbefore

/-- Steps keep the log within its capacity. -/
theorem Alerts.Reaches.length_log_le {before after : Alerts} (h : Reaches before after)
    (hbefore : before.log.entries.length ≤ ErrorLog.capacity) :
    after.log.entries.length ≤ ErrorLog.capacity := by
  induction h with
  | refl => exact hbefore
  | tail _ step ih => exact step.length_log_le ih

namespace Session

variable {σ : Type}

/-- A record of a request that was given up leads nowhere. -/
theorem jumpTarget?_timeoutEntry (session : Session σ) (around : Surroundings)
    (request : PendingRequest) : (session.timeoutEntry around request).jumpTarget? = none := by
  have hwords {seconds : String} (h : ':' ∉ seconds.toList) :
      ':' ∉ ("Formatter did not respond within " ++ seconds ++ " seconds.").toList := by
    simp [h]
  have hlocation := SourceLocation.parse?_of_no_colon
    (hwords (Decimal.colon_notMem_seconds session.timeout))
  rw [LogEntry.jumpTarget?, LogEntry.location?]
  exact congrArg (Option.map SourceLocation.position) hlocation

/-! ## Taking responses from the channel -/

/-- Handle the responses in the channel one by one, the oldest first, until there is none. Gives
their number. -/
def drain (session : Session σ) (around : Surroundings) : Nat × Session σ :=
  match _ : session.responses with
  | [] => (0, session)
  | response :: later =>
    let handled := ((session.withResponses later).handleResponse around response).2
    let (count, drained) := handled.drain around
    (count + 1, drained)
termination_by session.responses.length
decreasing_by
  have hle := responses_withResponses_le session later
  rw [responses_handleResponse, ‹session.responses = response :: later›, List.length_cons]
  omega

/-- A channel that holds what it held is the same. -/
theorem withResponses_responses (session : Session σ) :
    session.withResponses session.responses = session := by
  rw [withResponses]
  split
  · rfl
  · rename_i worker hmode
    simp only [responses, hmode]
    rw [← hmode]

/-- Of two contents of the channel the later one counts. -/
@[simp] theorem withResponses_withResponses (session : Session σ)
    (first second : List WorkerResponse) :
    (session.withResponses first).withResponses second = session.withResponses second := by
  cases hmode : session.mode <;> simp only [withResponses, hmode]

/-- A session with something in its channel has a worker. -/
theorem isBackground_of_responses {session : Session σ} (h : session.responses ≠ []) :
    session.isBackground = true := by
  cases hmode : session.mode with
  | inline formatter => exact absurd (by simp only [responses, hmode]) h
  | background worker => simp only [isBackground, hmode]

/-- The channel of a worker holds what is put there. -/
theorem responses_withResponses {session : Session σ} (h : session.isBackground = true)
    (responses : List WorkerResponse) :
    (session.withResponses responses).responses = responses := by
  cases hmode : session.mode with
  | inline formatter => simp [isBackground, hmode] at h
  | background worker => simp only [withResponses, Session.responses, hmode]

/-- Where the formatter runs does not matter for an outcome. -/
theorem apply_mode (session : Session σ) (mode : Mode σ) (around : Surroundings) (id : FileId)
    (fileName : String) (range : Option Span) (outcome : Except ErrorInfo FormatResult) :
    (({ session with mode } : Session σ).apply around id fileName range outcome).2 =
      { (session.apply around id fileName range outcome).2 with mode } := by
  cases outcome with
  | error error => rfl
  | ok result =>
    simp only [apply]
    cases session.editor.file? id <;> rfl

/-- Where the formatter runs does not matter for a response. -/
theorem handleResponse_mode (session : Session σ) (mode : Mode σ) (around : Surroundings)
    (response : WorkerResponse) :
    (({ session with mode } : Session σ).handleResponse around response).2 =
      { (session.handleResponse around response).2 with mode } := by
  let other : Session σ := { session with mode }
  show (other.handleResponse around response).2 = _
  cases hawaited : session.pending.find? response.id with
  | none =>
    have hother : other.pending.find? response.id = none := hawaited
    rw [handleResponse_unawaited hawaited, handleResponse_unawaited hother]
  | some request =>
    have hother : other.pending.find? response.id = some request := hawaited
    by_cases h : session.Deliverable request response
    · have hdeliver : other.Deliverable request response := h
      rw [handleResponse_deliverable hawaited h, handleResponse_deliverable hother hdeliver]
      exact apply_mode (session.forget response.id) mode ..
    · have hdeliver : ¬ other.Deliverable request response := h
      rw [handleResponse_undeliverable hawaited h, handleResponse_undeliverable hother hdeliver]
      rfl

/-- The other responses in the channel do not matter for a response. -/
theorem handleResponse_withResponses (session : Session σ) (responses : List WorkerResponse)
    (around : Surroundings) (response : WorkerResponse) :
    ((session.withResponses responses).handleResponse around response).2 =
      (session.handleResponse around response).2.withResponses responses := by
  cases hmode : session.mode with
  | inline formatter => simp only [withResponses, mode_handleResponse, hmode]
  | background worker =>
    simp only [withResponses, mode_handleResponse, hmode]
    exact handleResponse_mode session _ around response

/-- Draining the channel handles every response that is in it, in their order. -/
theorem drain_eq (session : Session σ) (around : Surroundings) :
    session.drain around = (session.responses.length,
      (session.withResponses []).handleAll around session.responses) := by
  fun_induction drain session around with
  | case1 session hresponses =>
    have hsame : session.withResponses [] = session :=
      hresponses ▸ session.withResponses_responses
    rw [hresponses, hsame]
    rfl
  | case2 session response later hresponses handled count drained hdrained ih =>
    have hsome : session.responses ≠ [] := by simp [hresponses]
    have hlater : handled.responses = later := by
      rw [responses_handleResponse, responses_withResponses (isBackground_of_responses hsome)]
    have hempty : handled.withResponses [] =
        ((session.withResponses []).handleResponse around response).2 := by
      show ((session.withResponses later).handleResponse around response).2.withResponses [] = _
      rw [handleResponse_withResponses, handleResponse_withResponses, withResponses_withResponses]
    rw [hdrained, hlater, hempty] at ih
    obtain ⟨rfl, rfl⟩ := Prod.mk.inj ih
    rw [hresponses]
    rfl

/-! ## What draining leaves -/

/-- Responses end their own requests and no other. -/
theorem pending_handleAll (session : Session σ) (around : Surroundings)
    (responses : List WorkerResponse) :
    (session.handleAll around responses).pending =
      session.pending.filter fun entry => entry.1 ∉ responses.map WorkerResponse.id := by
  induction responses generalizing session with
  | nil => exact (Entries.filter_notMem_nil _).symm
  | cons response later ih =>
    refine (ih _).trans ?_
    rw [pending_handleResponse, List.map_cons, Entries.filter_remove]

/-! ## Expiry in any order -/

/-- Give up one request, if it is pending, and record this. -/
def giveUp (around : Surroundings) (session : Session σ) (number : RequestId) : Session σ :=
  match session.pending.find? number with
  | none => session
  | some request =>
    { session.forget number with
      log := session.log.record (session.timeoutEntry around request) }

/-- Give up the stale requests one by one as they come in a listing of the table, then tell the
user if there was one. Gives their number. -/
def expireListed (session : Session σ) (around : Surroundings)
    (listing : Entries RequestId PendingRequest) : Nat × Session σ :=
  let stale := Entries.keys (listing.filter fun entry => session.isStale around.now entry.2)
  let later := stale.foldl (giveUp around) session
  (stale.length,
    if stale.isEmpty then later
    else { later with notifier := later.notifier.surface later.settings.opensLogOnError })

section Expiry

variable {session : Session σ} {around : Surroundings}

/-- Pending requests that are given up one by one leave the table, and each of them is recorded. -/
theorem foldl_giveUp (around : Surroundings) {stale : Entries RequestId PendingRequest}
    (hnodup : session.pending.keys.Nodup) (hstale : stale.keys.Nodup)
    (hpending : ∀ entry ∈ stale, entry ∈ session.pending) :
    stale.keys.foldl (giveUp around) session =
      { session with
        pending := session.pending.filter fun entry => entry.1 ∉ stale.keys
        log := (stale.map fun entry => session.timeoutEntry around entry.2).foldl
          ErrorLog.record session.log } := by
  induction stale generalizing session with
  | nil =>
    have hkeys : Entries.keys ([] : Entries RequestId PendingRequest) = [] := rfl
    rw [hkeys, Entries.filter_notMem_nil]
    rfl
  | cons first rest ih =>
    obtain ⟨number, request⟩ := first
    obtain ⟨hfirst, hrest⟩ := List.nodup_cons.1 hstale
    obtain ⟨hmem, hothers⟩ := List.forall_mem_cons.1 hpending
    have hgiven : giveUp around session number =
        { session.forget number with
          log := session.log.record (session.timeoutEntry around request) } := by
      rw [giveUp, Entries.find?_of_mem hnodup hmem]
    have hleft : (giveUp around session number).pending.keys.Nodup := by
      rw [hgiven]
      exact (List.filter_sublist.map _).nodup hnodup
    have hkept : ∀ entry ∈ rest, entry ∈ (giveUp around session number).pending := by
      intro entry hentry
      rw [hgiven]
      refine List.mem_filter.2 ⟨hothers entry hentry, decide_eq_true fun hsame => hfirst ?_⟩
      exact List.mem_map.2 ⟨entry, hentry, hsame⟩
    refine (ih hleft hrest hkept).trans ?_
    have hkeys : Entries.keys ((number, request) :: rest) = number :: Entries.keys rest := rfl
    rw [hgiven, hkeys, ← Entries.filter_remove]
    rfl

/-- The requests that are not listed as stale are those that are not stale. -/
theorem filter_notMem_stale (hnodup : session.pending.keys.Nodup)
    {listing : Entries RequestId PendingRequest} (hlisting : listing.Perm session.pending) :
    session.pending.filter (fun entry => entry.1 ∉
        Entries.keys (listing.filter fun entry => session.isStale around.now entry.2)) =
      session.pending.filter fun entry => !session.isStale around.now entry.2 := by
  refine List.filter_congr fun entry hentry => ?_
  have hstale : entry.1 ∈ Entries.keys (listing.filter fun entry =>
      session.isStale around.now entry.2) ↔ session.isStale around.now entry.2 = true := by
    constructor
    · intro h
      obtain ⟨other, hother, hnumber⟩ := List.mem_map.1 h
      obtain ⟨hlisted, hold⟩ := List.mem_filter.1 hother
      -- a number stands for one request only
      have hfound := Entries.find?_of_mem hnodup (hlisting.mem_iff.1 hlisted)
      rw [hnumber, Entries.find?_of_mem hnodup hentry] at hfound
      rwa [Option.some.inj hfound]
    · intro h
      exact List.mem_map_of_mem (List.mem_filter.2 ⟨hlisting.mem_iff.2 hentry, h⟩)
  simp only [hstale]
  cases session.isStale around.now entry.2 <;> rfl

/-- What an expiry does, for any listing of the table. -/
theorem expireListed_eq (hnodup : session.pending.keys.Nodup)
    {listing : Entries RequestId PendingRequest} (hlisting : listing.Perm session.pending) :
    let stale := listing.filter fun entry => session.isStale around.now entry.2
    session.expireListed around listing =
      (stale.length,
        { session with
          pending := session.pending.filter fun entry => !session.isStale around.now entry.2
          log := (stale.map fun entry => session.timeoutEntry around entry.2).foldl
            ErrorLog.record session.log
          notifier := if stale.isEmpty then session.notifier
            else session.notifier.surface session.settings.opensLogOnError }) := by
  intro stale
  have hsublist : stale.Sublist listing := List.filter_sublist
  have hkeys : (Entries.keys stale).Nodup :=
    (hsublist.map _).nodup ((hlisting.map Prod.fst).nodup_iff.2 hnodup)
  have hgiven := foldl_giveUp around hnodup hkeys
    fun entry hentry => hlisting.mem_iff.1 (hsublist.subset hentry)
  rw [filter_notMem_stale hnodup hlisting] at hgiven
  have hlength : (Entries.keys stale).length = stale.length := List.length_map ..
  have hempty : (Entries.keys stale).isEmpty = stale.isEmpty := List.isEmpty_map ..
  rw [expireListed, hgiven, hlength, hempty]
  cases stale.isEmpty <;> rfl

/-- The table is listed in the order of its numbers. -/
theorem expireStale_eq (hnodup : session.pending.keys.Nodup) :
    session.expireStale around = session.expireListed around session.pending := by
  rw [expireListed_eq hnodup (.refl _), List.foldl_map]
  rfl

end Expiry

/-! ## What a poll does -/

/-- No number is pending twice, and the log holds no more than its capacity. -/
structure WellFormed (session : Session σ) : Prop where
  nodup : session.pending.keys.Nodup
  log : session.log.entries.length ≤ ErrorLog.capacity

/-- An expiry takes from the table the requests whose age has reached the timeout; what was sent
later than now has no age. Each of them is recorded once in some order, with nowhere to jump to, and
the user is told once if there is one. Nothing else changes, and doing it again does nothing. -/
structure Expires (session : Session σ) (around : Surroundings) (outcome : Nat × Session σ) :
    Prop where
  count : outcome.1 = (session.staleAt around.now).length
  pending : outcome.2.pending =
    session.pending.filter fun entry => ¬ session.timeout ≤ around.now - entry.2.issuedAt
  log : ∃ recorded : List LogEntry,
    recorded.Perm ((session.staleAt around.now).map fun entry =>
      session.timeoutEntry around entry.2) ∧
    (∀ entry ∈ recorded, entry.kind = .timeout ∧ entry.jumpTarget? = none) ∧
    outcome.2.log.entries = (recorded ++ session.log.entries).take 10
  notifier : outcome.2.notifier =
    if session.staleAt around.now = [] then session.notifier
    else session.notifier.surface session.settings.opensLogOnError
  frame : outcome.2 = { session with
    pending := outcome.2.pending, log := outcome.2.log, notifier := outcome.2.notifier }
  again : ∀ listing : Entries RequestId PendingRequest, listing.Perm outcome.2.pending →
    outcome.2.expireListed around listing = (0, outcome.2)

/-- Nothing is given up of a listing without stale requests. -/
theorem expireListed_of_fresh {session : Session σ} {around : Surroundings}
    {listing : Entries RequestId PendingRequest}
    (h : ∀ entry ∈ listing, session.isStale around.now entry.2 = false) :
    session.expireListed around listing = (0, session) := by
  have hnone : listing.filter (fun entry => session.isStale around.now entry.2) = [] :=
    List.filter_eq_nil_iff.2 fun entry hentry => by simp [h entry hentry]
  rw [expireListed, hnone]
  rfl

/-- An expiry does so for every listing of the table. -/
theorem expires_expireListed {session : Session σ} (h : session.WellFormed) (around : Surroundings)
    {listing : Entries RequestId PendingRequest} (hlisting : listing.Perm session.pending) :
    session.Expires around (session.expireListed around listing) := by
  rw [expireListed_eq h.nodup hlisting]
  have hstale : (listing.filter fun entry => session.isStale around.now entry.2).Perm
      (session.staleAt around.now) := hlisting.filter _
  have hempty : (listing.filter fun entry => session.isStale around.now entry.2).isEmpty = true ↔
      session.staleAt around.now = [] := by
    rw [List.isEmpty_iff, ← List.length_eq_zero_iff, hstale.length_eq, List.length_eq_zero_iff]
  refine ⟨hstale.length_eq, ?_, ?_, by simp only [hempty], rfl, fun later hlater => ?_⟩
  · exact List.filter_congr fun entry _ => (decide_not ..).symm
  · refine ⟨_, (List.reverse_perm _).trans (hstale.map _), fun entry hentry => ?_,
      ErrorLog.entries_foldl_record h.log _⟩
    obtain ⟨request, -, rfl⟩ := List.mem_map.1 (List.mem_reverse.1 hentry)
    exact ⟨rfl, jumpTarget?_timeoutEntry ..⟩
  · refine expireListed_of_fresh fun entry hentry => ?_
    have hfresh := (List.mem_filter.1 (hlater.mem_iff.1 hentry)).2
    rwa [Bool.not_eq_true'] at hfresh

/-- Poll with the table listed in some order after the channel was drained. -/
def pollListed (session : Session σ) (around : Surroundings)
    (listing : Entries RequestId PendingRequest) : Nat × Session σ :=
  ((session.drain around).1, ((session.drain around).2.expireListed around listing).2)

/-- A poll handles the responses in the channel in their order, which ends their requests and
records no request as given up. Then it gives up stale requests, none of which had a response. -/
structure Polls (session : Session σ) (around : Surroundings) (handled : Session σ)
    (outcome : Nat × Session σ) : Prop where
  count : outcome.1 = session.responses.length
  in_order : handled = (session.withResponses []).run
    (session.responses.map fun response => .respond around response)
  pending : handled.pending =
    session.pending.filter fun entry => entry.1 ∉ session.responses.map WorkerResponse.id
  timeouts : handled.timeouts.Sublist session.timeouts
  expires : ∃ expired, handled.Expires around (expired, outcome.2)
  spared : ∀ entry ∈ handled.staleAt around.now,
    entry.1 ∉ session.responses.map WorkerResponse.id
  responses : outcome.2.responses = []

/-- Handling responses is a run of moves. -/
theorem handleAll_eq_run (session : Session σ) (around : Surroundings)
    (responses : List WorkerResponse) :
    session.handleAll around responses =
      session.run (responses.map fun response => .respond around response) := by
  rw [handleAll, run, List.foldl_map]
  rfl

/-- Responses record no request as given up. -/
theorem timeouts_handleAll (session : Session σ) (around : Surroundings)
    (responses : List WorkerResponse) :
    (session.handleAll around responses).timeouts.Sublist session.timeouts := by
  induction responses generalizing session with
  | nil => exact .refl _
  | cons response later ih =>
    exact (ih _).trans (session.handleResponse_tells around response).1.timeouts_sublist

/-- Responses leave a session well-formed. -/
theorem WellFormed.handleAll {session : Session σ} (h : session.WellFormed) (around : Surroundings)
    (responses : List WorkerResponse) : (session.handleAll around responses).WellFormed where
  nodup := by
    rw [pending_handleAll]
    exact (List.filter_sublist.map _).nodup h.nodup
  log := (reaches_handleAll session around responses).length_log_le h.log

/-- Taking responses leaves a session well-formed. -/
theorem WellFormed.withResponses {session : Session σ} (h : session.WellFormed)
    (responses : List WorkerResponse) : (session.withResponses responses).WellFormed where
  nodup := by
    rw [pending_withResponses]
    exact h.nodup
  log := (reaches_of_eq (session.alerts_withResponses responses)).length_log_le h.log

/-- For every state of the session, every content of the channel and every order in which the table
is listed, a poll handles all responses before it gives up what is stale. The session polls in the
order of the numbers. -/
theorem poll_handles_then_expires {session : Session σ} (h : session.WellFormed)
    (around : Surroundings) :
    let handled := (session.drain around).2
    (∀ listing : Entries RequestId PendingRequest, listing.Perm handled.pending →
      session.Polls around handled (session.pollListed around listing)) ∧
    session.poll around = session.pollListed around handled.pending := by
  intro handled
  have hhandled : handled = (session.withResponses []).handleAll around session.responses := by
    rw [show handled = (session.drain around).2 from rfl, drain_eq]
  have hwell : handled.WellFormed := hhandled ▸ (h.withResponses []).handleAll around _
  have hpending : handled.pending =
      session.pending.filter fun entry => entry.1 ∉ session.responses.map WorkerResponse.id := by
    rw [hhandled, pending_handleAll, pending_withResponses]
  refine ⟨fun listing hlisting => ?_, ?_⟩
  · have hexpires := expires_expireListed hwell around hlisting
    refine ⟨?_, ?_, hpending, ?_, ⟨_, hexpires⟩, fun entry hentry => ?_, ?_⟩
    · rw [pollListed, drain_eq]
    · rw [hhandled, handleAll_eq_run]
    · have hlog : (session.withResponses []).log = session.log :=
        congrArg Alerts.log (session.alerts_withResponses [])
      have htimeouts := timeouts_handleAll (session.withResponses []) around session.responses
      rwa [← hhandled, timeouts, timeouts, hlog] at htimeouts
    · have hleft := (List.mem_filter.1 hentry).1
      rw [hpending] at hleft
      exact of_decide_eq_true (List.mem_filter.1 hleft).2
    · have hmode : (handled.expireListed around listing).2.mode =
          (session.withResponses []).mode := by
        rw [hexpires.frame]
        exact hhandled ▸ (sameSetup_handleAll ..).mode
      refine List.length_eq_zero_iff.1 (Nat.le_zero.1 ?_)
      have hempty := session.responses_withResponses_le []
      simp only [Session.responses] at hempty ⊢
      rwa [← hmode] at hempty
  · rw [poll, pollListed, drain_eq, ← hhandled, ← expireStale_eq hwell.nodup]

/-- A session with two requests that are both too old at ten nanoseconds. The worker has answered
the first one. -/
def overdue : Session Unit :=
  (impatient.calledAll [.formatFile default "a", .formatFile default "b"]).work 1

/-- The answer is handled, and only the other request is given up. -/
theorem poll_handles_then_expires_overdue :
    let around : Surroundings := { (default : Surroundings) with now := 10 }
    overdue.WellFormed ∧ (overdue.staleAt 10).length = 2 ∧ (overdue.poll around).1 = 1 ∧
      ∃ given answered : LogEntry, (overdue.poll around).2.log.entries = [given, answered] ∧
        given.kind = .timeout ∧ given.jumpTarget? = none ∧ answered.kind = .format := by
  intro around
  have hwell : overdue.WellFormed := ⟨by decide +kernel, by decide +kernel⟩
  obtain ⟨hpolls, hpoll⟩ := poll_handles_then_expires hwell around
  have hpolled := hpolls _ (.refl _)
  rw [← hpoll, drain_eq] at hpolled
  obtain ⟨expired, hexpires⟩ := hpolled.expires
  obtain ⟨recorded, hrecorded, hkind, hlog⟩ := hexpires.log
  obtain ⟨given, rfl⟩ : ∃ given, recorded = [given] :=
    List.length_eq_one_iff.1 (hrecorded.length_eq.trans (by decide +kernel))
  obtain ⟨answered, hanswered⟩ : ∃ answered,
      ((overdue.withResponses []).handleAll around overdue.responses).log.entries = [answered] :=
    List.length_eq_one_iff.1 (by decide +kernel)
  have hformat : ((overdue.withResponses []).handleAll around overdue.responses).log.entries.map
      LogEntry.kind = [.format] := by decide +kernel
  obtain ⟨htimeout, hjump⟩ := hkind given (List.mem_singleton_self _)
  rw [hanswered] at hlog hformat
  exact ⟨hwell, by decide +kernel, hpolled.count.trans (by decide +kernel), given, answered, hlog,
    htimeout, hjump, List.singleton_inj.1 hformat⟩

end Session

end EditorFormat
