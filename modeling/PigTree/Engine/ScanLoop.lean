import PigTree.Engine.Progress

/-!
# The engine's scan loop

While the runner thread drives the worker, the engine's main thread forwards progress at
most every 100 milliseconds, answers or obeys what arrives on the session, and waits for
the runner. Then it sends the last progress and the response that settles the scan.
-/

namespace PigTree

open Foundation

/-- The runner thread of one scan. It may fail before it reads anything; it reads records
until the stream ends or cannot be decoded. Each record leaves something in memory, so
there are fewer than the machine can address. -/
structure Runner where
  rt : Runtime
  operationId : String
  target : String
  launchError : Option ScanRunnerError
  readings : List Reading
  undecodable : Bool
  exited : Option UInt32
  addressable : readings.length < 2 ^ 64

namespace Runner

def build (runner : Runner) :
    List ScanProgress × Checked (Except StreamBuildError DirectoryGraph) :=
  GraphBuilder.buildFromReaderWithProgress runner.rt runner.operationId runner.target
    runner.readings runner.undecodable

/-- The messages the runner sends, in order. -/
def progress (runner : Runner) : List ScanProgress :=
  if runner.launchError.isSome then [] else runner.build.1

/-- What joining the thread yields; nothing if it has panicked. -/
def joined (runner : Runner) : Option (Except ScanRunnerError DirectoryGraph) :=
  match runner.launchError with
  | some err => some (.error err)
  | none =>
      match runner.build.2 with
      | .error _ => none
      | .ok built => some (runnerResult runner.exited built)

end Runner

/-- What the engine writes to the session. -/
inductive EngineMessage where
  | progress (progress : ScanProgress)
  | response (response : CommandResponse)
deriving DecidableEq

namespace EngineMessage

def progress? : EngineMessage → Option ScanProgress
  | .progress p => some p
  | .response _ => none

def isScanResponse : EngineMessage → Bool
  | .response { response := some (.scanResponse _), .. } => true
  | _ => false

end EngineMessage

/-- The scan command being served. -/
structure ScanTask where
  requestId : String
  sessionId : String
  info : OperationInfo

/-- The loop between two passes: the coalesced message, what the runner has yet to send,
whether the worker was told to stop, and what was written. -/
structure ScanLoop where
  pendingProgress : Option ScanProgress
  upcoming : List ScanProgress
  cancelled : Bool
  sent : List EngineMessage

namespace ScanLoop

def start (runner : Runner) : ScanLoop where
  pendingProgress := none
  upcoming := runner.progress
  cancelled := false
  sent := []

/-- What one pass meets: how many messages have arrived from the runner, the clocks, what
the session says, whether messages can be written, and whether the runner has finished. -/
structure Tick where
  arrived : ℕ
  intervalElapsed : Bool
  progressWritten : Bool
  readiness : Except IpcError FrameReadiness
  incompleteTooLong : Bool
  received : Except IpcError (Option CommandRequest)
  replyWritten : Bool
  finished : Bool

/-- Only the latest of the messages is kept. -/
def coalesce (pending : Option ScanProgress) (messages : List ScanProgress) : Option ScanProgress :=
  messages.foldl (fun _ p => some p) pending

/-- Take the messages that have arrived. -/
def drain (arrived : ℕ) (loop : ScanLoop) : ScanLoop :=
  { loop with
    pendingProgress := coalesce loop.pendingProgress (loop.upcoming.take arrived)
    upcoming := loop.upcoming.drop arrived }

def write (written : Bool) (message : EngineMessage) (loop : ScanLoop) : ScanLoop :=
  if written then { loop with sent := loop.sent ++ [message] } else loop

/-- Send the pending message if the last one was sent long enough ago. Nothing if sending
fails. -/
def sendPending (tick : Tick) (loop : ScanLoop) : Option ScanLoop :=
  match loop.pendingProgress with
  | none => some loop
  | some p =>
      if tick.intervalElapsed then
        if tick.progressWritten then
          some { loop with pendingProgress := none, sent := loop.sent ++ [.progress p] }
        else none
      else some loop

def cancelMatches (task : ScanTask) (cancel : CancelRequest) : Bool :=
  cancel.targetRequestId = "" || cancel.targetRequestId = task.requestId ||
    cancel.targetRequestId = task.info.operationId || cancel.targetRequestId = "scan"

def scanningStatus (task : ScanTask) (requestId : String) : CommandResponse where
  requestId := requestId
  status := 0
  errorCode := ""
  errorMessage := ""
  response := some (.statusPayload {
    state := "SCANNING"
    activeRuns := 1
    totalObservations := 0
    sessionId := task.sessionId })

def busy (requestId : String) : CommandResponse where
  requestId := requestId
  status := 1
  errorCode := "BUSY"
  errorMessage := "Engine is busy executing an active scan operation"
  response := some (.error {
    code := "BUSY"
    message := "Engine is busy executing an active scan operation"
    details := "" })

/-- The effect of a command that arrives during the scan. A cancellation is not answered. -/
def handle (task : ScanTask) (tick : Tick) (loop : ScanLoop) (cmd : CommandRequest) : ScanLoop :=
  match cmd.request with
  | some (.cancel cancel) =>
      if cancelMatches task cancel then { loop with cancelled := true } else loop
  | some .status =>
      loop.write tick.replyWritten (.response (scanningStatus task cmd.requestId))
  | _ => loop.write tick.replyWritten (.response (busy cmd.requestId))

/-- Look at the session. Nothing if it is closed or broken. -/
def inbound (task : ScanTask) (tick : Tick) (loop : ScanLoop) : Option ScanLoop :=
  match tick.readiness with
  | .error _ => none
  | .ok .empty => some loop
  | .ok .incomplete => if tick.incompleteTooLong then none else some loop
  | .ok .complete =>
      match tick.received with
      | .ok (some cmd) => some (handle task tick loop cmd)
      | _ => none

/-- One pass; nothing more is written if the engine leaves here. -/
def pass (task : ScanTask) (tick : Tick) (loop : ScanLoop) : ScanLoop × Bool :=
  let drained := loop.drain tick.arrived
  match sendPending tick drained with
  | none => (drained, false)
  | some loop =>
      match inbound task tick loop with
      | none => (loop, false)
      | some loop => (loop, true)

/-- What the engine meets after the runner has finished. -/
structure Finale where
  progressWritten : Bool
  responseWritten : Bool

/-- Everything the runner has sent has arrived; the latest message goes out. -/
def finalDrain (finale : Finale) (loop : ScanLoop) : ScanLoop :=
  match coalesce loop.pendingProgress loop.upcoming with
  | none => { loop with pendingProgress := none, upcoming := [] }
  | some p =>
      write finale.progressWritten (.progress p)
        { loop with pendingProgress := none, upcoming := [] }

/-- The response to the scan. -/
def scanResponse (task : ScanTask) (runner : Runner) (loop : ScanLoop) : Checked ScanResponse :=
  match runner.joined with
  | none => .ok (Response.unsettled task.info loop.cancelled)
  | some result => Response.terminal task.info loop.cancelled result

/-- The engine after the join. -/
def settle (task : ScanTask) (runner : Runner) (finale : Finale) (loop : ScanLoop) :
    Checked ScanLoop := do
  let loop := finalDrain finale loop
  let response ← scanResponse task runner loop
  return loop.write finale.responseWritten (.response (Response.answer task.requestId response))

/-- A scan through the given passes. -/
def run (task : ScanTask) (runner : Runner) (finale : Finale) :
    ScanLoop → List Tick → Checked ScanLoop
  | loop, [] => .ok loop
  | loop, tick :: ticks =>
      match pass task tick loop with
      | (loop, false) => .ok loop
      | (loop, true) =>
          if tick.finished then settle task runner finale loop
          else run task runner finale loop ticks

variable {task : ScanTask} {runner : Runner} {finale : Finale} {tick : Tick}
  {loop next : ScanLoop}

/-! ### What the loop keeps -/

/-- What was sent, what is pending and what is to come follow the runner's messages in
order, and the scan has not been answered. -/
structure Follows (runner : Runner) (loop : ScanLoop) : Prop where
  ordered : (loop.sent.filterMap EngineMessage.progress? ++
    (loop.pendingProgress.toList ++ loop.upcoming)).Sublist runner.progress
  unanswered : ∀ message ∈ loop.sent, message.isScanResponse = false

theorem follows_start (runner : Runner) : Follows runner (start runner) where
  ordered := .refl _
  unanswered := nofun

theorem coalesce_sublist (pending : Option ScanProgress) (messages : List ScanProgress) :
    (coalesce pending messages).toList.Sublist (pending.toList ++ messages) := by
  induction messages generalizing pending with
  | nil =>
      rw [List.append_nil]
      exact .refl _
  | cons p messages ih =>
      have rest : (coalesce (some p) messages).toList.Sublist (p :: messages) := ih (some p)
      exact rest.trans (List.sublist_append_right _ _)

theorem Follows.drain (follows : Follows runner loop) (arrived : ℕ) :
    Follows runner (loop.drain arrived) where
  ordered := by
    apply List.Sublist.trans ?_ follows.ordered
    apply List.Sublist.append_left
    have kept := coalesce_sublist loop.pendingProgress (loop.upcoming.take arrived)
    have all := kept.append_right (loop.upcoming.drop arrived)
    rw [List.append_assoc, List.take_append_drop] at all
    exact all
  unanswered := follows.unanswered

theorem Follows.sendPending (follows : Follows runner loop)
    (sends : ScanLoop.sendPending tick loop = some next) : Follows runner next := by
  unfold ScanLoop.sendPending at sends
  split at sends
  · cases sends
    exact follows
  · next p pending =>
      split at sends
      · split at sends
        · cases sends
          constructor
          · have ordered := follows.ordered
            rw [pending] at ordered
            simpa [EngineMessage.progress?] using ordered
          · rw [List.forall_mem_append, List.forall_mem_singleton]
            exact ⟨follows.unanswered, rfl⟩
        · cases sends
      · cases sends
        exact follows

/-- A reply that is not a scan response changes nothing of this. -/
theorem Follows.write (follows : Follows runner loop) (written : Bool) {reply : CommandResponse}
    (other : (EngineMessage.response reply).isScanResponse = false) :
    Follows runner (loop.write written (.response reply)) := by
  unfold ScanLoop.write
  split
  · constructor
    · have none : [EngineMessage.response reply].filterMap EngineMessage.progress? = [] := rfl
      simpa [none] using follows.ordered
    · rw [List.forall_mem_append, List.forall_mem_singleton]
      exact ⟨follows.unanswered, other⟩
  · exact follows

theorem Follows.handle (follows : Follows runner loop) (task : ScanTask) (tick : Tick)
    (cmd : CommandRequest) : Follows runner (ScanLoop.handle task tick loop cmd) := by
  unfold ScanLoop.handle
  split
  · split
    · exact ⟨follows.ordered, follows.unanswered⟩
    · exact follows
  · exact follows.write _ rfl
  · exact follows.write _ rfl

theorem Follows.inbound (follows : Follows runner loop)
    (goes : ScanLoop.inbound task tick loop = some next) : Follows runner next := by
  unfold ScanLoop.inbound at goes
  split at goes
  · cases goes
  · cases goes
    exact follows
  · split at goes
    · cases goes
    · cases goes
      exact follows
  · split at goes
    · cases goes
      exact follows.handle task tick _
    · cases goes

theorem Follows.pass (follows : Follows runner loop) (task : ScanTask) (tick : Tick) :
    Follows runner (ScanLoop.pass task tick loop).1 := by
  have drained := follows.drain tick.arrived
  unfold ScanLoop.pass
  dsimp only
  split
  · exact drained
  · next sends =>
      have sent := drained.sendPending sends
      split
      · exact sent
      · next goes => exact sent.inbound goes

theorem Follows.finalDrain (follows : Follows runner loop) (finale : Finale) :
    Follows runner (ScanLoop.finalDrain finale loop) := by
  have kept := coalesce_sublist loop.pendingProgress loop.upcoming
  have ordered := (kept.append_left (loop.sent.filterMap EngineMessage.progress?)).trans
    follows.ordered
  unfold ScanLoop.finalDrain ScanLoop.write
  split
  · next none =>
      rw [none] at ordered
      exact ⟨by simpa using ordered, follows.unanswered⟩
  · next p pending =>
      rw [pending] at ordered
      split
      · constructor
        · simpa [EngineMessage.progress?] using ordered
        · rw [List.forall_mem_append, List.forall_mem_singleton]
          exact ⟨follows.unanswered, rfl⟩
      · constructor
        · apply List.Sublist.trans ?_ ordered
          simp
        · exact follows.unanswered

/-! ### The answer -/

/-- The graph the runner hands over was built from its readings. -/
theorem joined_graph {graph : DirectoryGraph} (joined : runner.joined = some (.ok graph)) :
    GraphBuilder.buildFromReader runner.rt runner.target
      (runner.readings.map Reading.record) = .ok (.ok graph) := by
  unfold Runner.joined at joined
  split at joined
  · cases joined
  · split at joined
    · cases joined
    · next built ran =>
        unfold runnerResult at joined
        split at joined
        · cases joined
        · split at joined
          · cases joined
          · split at joined
            · cases joined
            · cases joined
              exact GraphBuilder.buildFromReaderWithProgress_graph ran

/-- There is always a response. -/
theorem scanResponse_ok (task : ScanTask) (runner : Runner) (loop : ScanLoop) :
    ∃ response, scanResponse task runner loop = .ok response := by
  unfold scanResponse
  split
  · exact ⟨_, rfl⟩
  · next result joined =>
      cases result with
      | error err => exact ⟨_, rfl⟩
      | ok graph =>
          rcases GraphBuilder.buildFromReader_eq_ok (joined_graph joined) with
            ⟨err, none⟩ | ⟨builder, reached, ran⟩
          · cases none
          · rcases reached.settled_eq ran task.info with ⟨response, settled, _⟩
            exact ⟨response, settled⟩

/-- After the join, the response is what is written last. -/
theorem settle_eq (follows : Follows runner loop) (task : ScanTask) (finale : Finale) :
    ∃ (before : ScanLoop) (reply : CommandResponse), Follows runner before ∧
      (EngineMessage.response reply).isScanResponse = true ∧
        settle task runner finale loop =
          .ok (before.write finale.responseWritten (.response reply)) := by
  rcases scanResponse_ok task runner (finalDrain finale loop) with ⟨response, built⟩
  refine ⟨finalDrain finale loop, Response.answer task.requestId response,
    follows.finalDrain finale, rfl, ?_⟩
  unfold settle
  dsimp only
  rw [built, Checked.ok_bind]
  rfl

/-! ### The protocol -/

/-- Progress is numbered upwards, none follows the scan response, and there is at most one
of these. -/
structure EventProtocol (sent : List EngineMessage) : Prop where
  increasing : (sent.filterMap EngineMessage.progress?).Pairwise
    (fun p q => p.sequenceNumber < q.sequenceNumber)
  last : ∀ before message after, sent = before ++ message :: after →
    message.isScanResponse = true → ∀ p, EngineMessage.progress p ∉ after
  single : sent.countP EngineMessage.isScanResponse ≤ 1

theorem progress_increasing (runner : Runner) :
    runner.progress.Pairwise (fun p q => p.sequenceNumber < q.sequenceNumber) := by
  unfold Runner.progress
  split
  · exact .nil
  · exact GraphBuilder.emitted_increasing _ _ _ _ runner.addressable

theorem Follows.increasing (follows : Follows runner loop) :
    (loop.sent.filterMap EngineMessage.progress?).Pairwise
      (fun p q => p.sequenceNumber < q.sequenceNumber) := by
  have first := (List.sublist_append_left _ _).trans follows.ordered
  exact List.Pairwise.sublist first (progress_increasing runner)

theorem Follows.countP_eq (follows : Follows runner loop) :
    loop.sent.countP EngineMessage.isScanResponse = 0 := by
  rw [List.countP_eq_zero]
  intro message mem
  simp [follows.unanswered message mem]

theorem Follows.eventProtocol (follows : Follows runner loop) : EventProtocol loop.sent where
  increasing := follows.increasing
  last := by
    rintro before message after split answers
    have unanswered := follows.unanswered message (by simp [split])
    rw [answers] at unanswered
    cases unanswered
  single := by
    rw [follows.countP_eq]
    exact Nat.zero_le 1

theorem countP_answered (follows : Follows runner loop) {reply : CommandResponse}
    (answers : (EngineMessage.response reply).isScanResponse = true) :
    (loop.sent ++ [EngineMessage.response reply]).countP EngineMessage.isScanResponse = 1 := by
  rw [List.countP_append, follows.countP_eq, List.countP_singleton, if_pos answers]

/-- A response behind all that was sent before it. -/
theorem Follows.answered (follows : Follows runner loop) {reply : CommandResponse}
    (answers : (EngineMessage.response reply).isScanResponse = true) :
    EventProtocol (loop.sent ++ [.response reply]) where
  increasing := by
    have none : [EngineMessage.response reply].filterMap EngineMessage.progress? = [] := rfl
    rw [List.filterMap_append, none, List.append_nil]
    exact follows.increasing
  last := by
    rintro before message after split answersToo p mem
    -- a message behind a scan response would have that response among the earlier ones
    rcases List.eq_nil_or_concat after with rfl | ⟨inner, last, rfl⟩
    · cases mem
    · rw [List.concat_eq_append, ← List.cons_append, ← List.append_assoc] at split
      have earlier := (List.append_inj' split rfl).1
      have unanswered := follows.unanswered message (by simp [earlier])
      rw [answersToo] at unanswered
      cases unanswered
  single := by
    rw [countP_answered follows answers]

theorem Follows.write_eventProtocol (follows : Follows runner loop) (written : Bool)
    {reply : CommandResponse} (answers : (EngineMessage.response reply).isScanResponse = true) :
    EventProtocol (loop.write written (.response reply)).sent := by
  cases written with
  | false => exact follows.eventProtocol
  | true => exact follows.answered answers

theorem run_eventProtocol (follows : Follows runner loop) (task : ScanTask) (finale : Finale)
    (ticks : List Tick) :
    ∃ final, run task runner finale loop ticks = .ok final ∧ EventProtocol final.sent := by
  induction ticks generalizing loop with
  | nil => exact ⟨loop, rfl, follows.eventProtocol⟩
  | cons tick ticks ih =>
      have passed := follows.pass task tick
      rw [run]
      split
      · next left =>
          rw [left] at passed
          exact ⟨_, rfl, passed.eventProtocol⟩
      · next goes =>
          rw [goes] at passed
          split
          · rcases settle_eq passed task finale with ⟨before, reply, follows, answers, settled⟩
            exact ⟨_, settled, follows.write_eventProtocol _ answers⟩
          · exact ih passed

/-- The session works, and what arrives on it can be read. -/
structure Tick.Orderly (tick : Tick) : Prop where
  progressWritten : tick.progressWritten = true
  replyWritten : tick.replyWritten = true
  readable : ∃ readiness, tick.readiness = .ok readiness
  whole : tick.readiness = .ok .incomplete → tick.incompleteTooLong = false
  received : tick.readiness = .ok .complete → ∃ cmd, tick.received = .ok (some cmd)

theorem sendPending_orderly (orderly : tick.Orderly) (loop : ScanLoop) :
    ∃ next, sendPending tick loop = some next := by
  unfold sendPending
  split
  · exact ⟨_, rfl⟩
  · split
    · rw [if_pos orderly.progressWritten]
      exact ⟨_, rfl⟩
    · exact ⟨_, rfl⟩

theorem inbound_orderly (orderly : tick.Orderly) (task : ScanTask) (loop : ScanLoop) :
    ∃ next, inbound task tick loop = some next := by
  rcases orderly.readable with ⟨readiness, readable⟩
  unfold inbound
  rw [readable]
  cases readiness with
  | empty => exact ⟨_, rfl⟩
  | incomplete =>
      rw [orderly.whole readable]
      exact ⟨_, rfl⟩
  | complete =>
      rcases orderly.received readable with ⟨cmd, received⟩
      rw [received]
      exact ⟨_, rfl⟩

theorem pass_orderly (orderly : tick.Orderly) (task : ScanTask) (loop : ScanLoop) :
    ∃ next, pass task tick loop = (next, true) := by
  rcases sendPending_orderly orderly (loop.drain tick.arrived) with ⟨sent, sends⟩
  rcases inbound_orderly orderly task sent with ⟨next, goes⟩
  refine ⟨next, ?_⟩
  unfold pass
  dsimp only
  rw [sends]
  dsimp only
  rw [goes]

/-- While the session works, a scan whose runner finishes is answered. -/
theorem run_answered (follows : Follows runner loop) (task : ScanTask) {ticks : List Tick}
    (orderly : ∀ tick ∈ ticks, tick.Orderly) (finishes : ∃ tick ∈ ticks, tick.finished = true)
    (written : finale.responseWritten = true) :
    ∃ final, run task runner finale loop ticks = .ok final ∧
      final.sent.countP EngineMessage.isScanResponse = 1 := by
  induction ticks generalizing loop with
  | nil =>
      rcases finishes with ⟨tick, mem, _⟩
      cases mem
  | cons tick ticks ih =>
      rw [List.forall_mem_cons] at orderly
      have passed := follows.pass task tick
      rcases pass_orderly orderly.1 task loop with ⟨next, goes⟩
      rw [goes] at passed
      rw [run, goes]
      dsimp only
      split
      · rcases settle_eq passed task finale with ⟨before, reply, follows, answers, settled⟩
        refine ⟨_, settled, ?_⟩
        rw [written]
        exact countP_answered follows answers
      · next unfinished =>
          apply ih passed orderly.2
          rcases finishes with ⟨other, mem, finished⟩
          rcases List.mem_cons.mp mem with rfl | mem
          · exact absurd finished unfinished
          · exact ⟨other, mem, finished⟩

/-- Whatever the runner sends and whenever it arrives, the scan is reported in order and
answered at most once, and exactly once if the session works and the runner finishes. -/
theorem scanLoop_eventProtocol (task : ScanTask) (runner : Runner) (finale : Finale)
    (ticks : List Tick) : ∃ final, run task runner finale (start runner) ticks = .ok final ∧
      EventProtocol final.sent ∧
        ((∀ tick ∈ ticks, tick.Orderly) → (∃ tick ∈ ticks, tick.finished = true) →
          finale.responseWritten = true →
            final.sent.countP EngineMessage.isScanResponse = 1) := by
  have follows := follows_start runner
  rcases run_eventProtocol follows task finale ticks with ⟨final, ran, protocol⟩
  refine ⟨final, ran, protocol, ?_⟩
  intro orderly finishes written
  rcases run_answered follows task orderly finishes written with ⟨other, ranToo, answered⟩
  rw [ran] at ranToo
  cases ranToo
  exact answered

/-- The runner reads the sample stream. -/
def Sample.scanRunner : Runner where
  rt := GraphBuilder.Sample.runtime
  operationId := "scan-1"
  target := "c:"
  launchError := none
  readings := GraphBuilder.Sample.shared.map (fun record =>
    { record, due := false, timestampIso := "2026-08-29T10:00:00.500Z" })
  undecodable := false
  exited := some 0
  addressable := by decide

def Sample.scanTask : ScanTask where
  requestId := "scan-1"
  sessionId := "1"
  info := GraphBuilder.Sample.operation

/-- A pass in which one message arrives and nothing is on the session. -/
def Sample.quiet (finished : Bool) : Tick where
  arrived := 1
  intervalElapsed := true
  progressWritten := true
  readiness := .ok .empty
  incompleteTooLong := false
  received := .ok none
  replyWritten := true
  finished := finished

theorem orderly_quiet (finished : Bool) : (Sample.quiet finished).Orderly where
  progressWritten := rfl
  replyWritten := rfl
  readable := ⟨_, rfl⟩
  whole := nofun
  received := nofun

theorem scanLoop_eventProtocol_quiet : ∃ final,
    run Sample.scanTask Sample.scanRunner ⟨true, true⟩ (start Sample.scanRunner)
        [Sample.quiet false, Sample.quiet true] = .ok final ∧
      EventProtocol final.sent ∧ final.sent.countP EngineMessage.isScanResponse = 1 := by
  rcases scanLoop_eventProtocol Sample.scanTask Sample.scanRunner ⟨true, true⟩
    [Sample.quiet false, Sample.quiet true] with ⟨final, ran, protocol, answered⟩
  refine ⟨final, ran, protocol, answered ?_ ?_ rfl⟩
  · simp [orderly_quiet]
  · exact ⟨Sample.quiet true, by simp, rfl⟩

end ScanLoop

end PigTree
