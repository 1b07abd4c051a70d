import PigTree.Client.EngineClient
import PigTree.Engine.ServedPages

/-!
# The client and the engine together

The two parties are joined by two streams. The engine reads the commands of the client in
the order in which they were written, the client reads what the engine has written in
order, and each takes its steps at any time. Nothing keeps the calls of the client apart:
any call that waits may take the next frame.

As long as the client makes one call at a time and the engine reads cancellations only
while it scans, every call gets the reply to its own request. A cancellation that the engine
reads after the scan has settled is answered, nobody reads that answer, and the next call
takes it for its own.
-/

namespace PigTree.Client

open Foundation Engine EngineReply

/-- A call that waits for frames. -/
inductive Call where
  | scanning (call : StartScan)
  | fetching (requestId : String) (page : GetChildrenRequest)
deriving DecidableEq, Repr

/-- What a call ends with: the result of a scan call, or the frame that a call for children
has taken. -/
inductive Ending where
  | scan (result : Except SessionError ScanResult)
  | children (taken : Except SessionError Received)
deriving DecidableEq

namespace Call

/-- The request whose reply the call waits for. -/
def command : Call → EngineCommand
  | .scanning call => scanCommand call.opId call.targetPath
  | .fetching requestId page => getChildrenCommand requestId page

/-- The stream ends under the call. -/
def endOfStream : Call → Ending
  | .scanning _ =>
      .scan (.error (.endOfStream "Engine closed connection prematurely during scan"))
  | .fetching _ _ =>
      .children (.error
        (.endOfStream "Engine closed connection prematurely during GetChildren query"))

end Call

/-- Both parties: the engine, the calls of the client that wait, all commands the client has
written, the number of frames it has read, and the calls that have ended. -/
structure Session where
  engine : Engine
  calls : List Call
  written : List EngineCommand
  consumed : ℕ
  ended : List (Call × Ending)

namespace Session

def start : Session where
  engine := .start
  calls := []
  written := []
  consumed := 0
  ended := []

/-- The commands the engine has yet to read. -/
def unread (session : Session) : List EngineCommand :=
  session.written.drop session.engine.read.length

/-- What the client has yet to read. -/
def incoming (session : Session) : List EngineOutput :=
  session.engine.written.drop session.consumed

def send (cmd : EngineCommand) (session : Session) : Session :=
  { session with written := session.written ++ [cmd] }

/-- A call sends its request and waits. -/
def ask (call : Call) (session : Session) : Session :=
  { session.send call.command with calls := session.calls ++ [call] }

def finish (idx : ℕ) (call : Call) (ending : Ending) (session : Session) : Session :=
  { session with calls := session.calls.eraseIdx idx, ended := session.ended ++ [(call, ending)] }

/-- A call reads a frame. -/
def receive (idx : ℕ) (call : Call) (frame : Received) (session : Session) : Session :=
  let session := { session with consumed := session.consumed + 1 }
  match call with
  | .scanning scan =>
      match scan.receive frame with
      | .ok (.goesOn scan _) => { session with calls := session.calls.set idx (.scanning scan) }
      | .ok (.returns result) => session.finish idx call (.scan (.ok result))
      | .error err => session.finish idx call (.scan (.error err))
  | .fetching _ _ => session.finish idx call (.children (.ok frame))

/-- What happens next. A call is named by its place among those that wait. -/
inductive Action where
  | engine (tick : Tick)
  | startScan (opId targetPath : String)
  | cancelScan (requestId : String) (idx : ℕ)
  | cancel (requestId operationId reason : String)
  | getChildren (requestId : String) (page : GetChildrenRequest)
  | receive (idx : ℕ)
  | giveUp (idx : ℕ)
  | closed (idx : ℕ)

/-- The engine reads nothing else than the next command, though it may find that the frame it
waits for is not all there. -/
def reads (session : Session) (tick : Tick) : Bool :=
  tick.command?.all (fun cmd => session.unread.head? = some cmd)

/-- The steps of both parties. Nothing where the step cannot be taken. -/
def step (info : EngineInfo) (session : Session) : Action → Option Session
  | .engine tick =>
      if session.reads tick then
        match Engine.step info session.engine tick with
        | .ok engine => some { session with engine }
        | .error _ => none
      else none
  | .startScan opId targetPath =>
      some (session.ask (.scanning
        { opId, targetPath, lastProgressSeq := 0, cancelInitiated := false }))
  | .cancelScan requestId idx =>
      -- The token of the scan call is cancelled.
      match session.calls[idx]? with
      | some (.scanning call) =>
          some {
            session.send (cancelCommand requestId call.opId "Scan cancelled by client") with
            calls := session.calls.set idx (.scanning { call with cancelInitiated := true }) }
      | _ => none
  | .cancel requestId operationId reason =>
      some (session.send (cancelCommand requestId operationId reason))
  | .getChildren requestId page => some (session.ask (.fetching requestId page))
  | .receive idx =>
      match session.calls[idx]?, session.incoming.head? with
      | some call, some output => some (session.receive idx call (.ofOutput output))
      | _, _ => none
  | .giveUp idx =>
      match session.calls[idx]? with
      | some (.scanning call) =>
          if call.cancelInitiated then
            some (session.finish idx (.scanning call) (.scan (.ok call.timedOut)))
          else none
      | _ => none
  | .closed idx =>
      match session.calls[idx]? with
      | some call =>
          if session.engine.mode.isLeft ∧ session.incoming.isEmpty then
            some (session.finish idx call call.endOfStream)
          else none
      | none => none

/-- What a run reaches whose steps are all allowed. -/
inductive Reachable (info : EngineInfo) (Allowed : Session → Action → Prop) : Session → Prop
  | start : Reachable info Allowed start
  | step {session next : Session} {action : Action} (reachable : Reachable info Allowed session)
      (allowed : Allowed session action) (stepped : session.step info action = some next) :
      Reachable info Allowed next

theorem Reachable.mono {info : EngineInfo} {Allowed Permitted : Session → Action → Prop}
    {session : Session}
    (weaker : ∀ session action, Allowed session action → Permitted session action)
    (reachable : Reachable info Allowed session) : Reachable info Permitted session := by
  induction reachable with
  | start => exact .start
  | step _ allowed stepped ih => exact ih.step (weaker _ _ allowed) stepped

/-- The session works. -/
def Works (_ : Session) : Action → Prop
  | .engine tick => tick.Working
  | _ => True

/-- The session works, and a call starts when no other waits. -/
def Sequential (session : Session) : Action → Prop
  | .engine tick => tick.Working
  | .startScan _ _ => session.calls = []
  | .getChildren _ _ => session.calls = []
  | _ => True

/-- No scan call gives up, and the engine reads cancellations only while it scans. -/
def InTime (session : Session) : Action → Prop
  | .engine tick => ∀ cmd, tick.command? = some cmd → IsCancel cmd →
      session.engine.mode.isScanning = true
  | .giveUp _ => False
  | _ => True

def Timely (session : Session) (action : Action) : Prop :=
  Sequential session action ∧ InTime session action

theorem works_of_timely (session : Session) (action : Action) (timely : Timely session action) :
    Works session action := by
  cases action with
  | engine tick => exact timely.1
  | _ => trivial

/-- The call has ended with the reply to its own request. -/
def Proper : Call → Ending → Prop
  | .scanning scan, .scan (.ok result) =>
      result.operationId = scan.opId ∧ result.targetPath = scan.targetPath
  | .fetching requestId page, .children (.ok frame) =>
      frame.channelTag = .command ∧ Answers (getChildrenCommand requestId page) frame.response
  | _, _ => False

variable {info : EngineInfo} {session next : Session} {tick : Tick}

/-! ### Steps -/

theorem step_engine {engine : Engine}
    (inOrder : ∀ cmd, tick.command? = some cmd → session.unread.head? = some cmd)
    (ran : Engine.step info session.engine tick = .ok engine) :
    session.step info (.engine tick) = some { session with engine } := by
  have reads : session.reads tick = true := by
    unfold Session.reads
    cases read : tick.command? with
    | none => rfl
    | some cmd => simpa using inOrder cmd read
  simp only [Session.step, if_pos reads, ran]

/-- What a pass of the engine was. -/
theorem engine_of_step (stepped : session.step info (.engine tick) = some next) :
    (∀ cmd, tick.command? = some cmd → session.unread.head? = some cmd) ∧
      ∃ engine, Engine.step info session.engine tick = .ok engine ∧
        next = { session with engine } := by
  simp only [Session.step] at stepped
  split at stepped
  · next reads =>
      split at stepped
      · next engine ran =>
          cases stepped
          refine ⟨?_, engine, ran, rfl⟩
          intro cmd read
          rw [Session.reads, read] at reads
          simpa using reads
      · cases stepped
  · cases stepped

/-- What a cancelled token has done. -/
theorem cancelScan_of_step {requestId : String} {idx : ℕ}
    (stepped : session.step info (.cancelScan requestId idx) = some next) :
    ∃ call, session.calls[idx]? = some (.scanning call) ∧ next = {
      session.send (cancelCommand requestId call.opId "Scan cancelled by client") with
      calls := session.calls.set idx (.scanning { call with cancelInitiated := true }) } := by
  simp only [Session.step] at stepped
  split at stepped
  · next call waits =>
      cases stepped
      exact ⟨call, waits, rfl⟩
  · cases stepped

theorem step_receive {idx : ℕ} {call : Call} {output : EngineOutput}
    (waits : session.calls[idx]? = some call) (first : session.incoming.head? = some output) :
    session.step info (.receive idx) = some (session.receive idx call (.ofOutput output)) := by
  simp only [Session.step, waits, first]

theorem receive_of_step {idx : ℕ} (stepped : session.step info (.receive idx) = some next) :
    ∃ call output, session.calls[idx]? = some call ∧ session.incoming.head? = some output ∧
      next = session.receive idx call (.ofOutput output) := by
  simp only [Session.step] at stepped
  split at stepped
  · next call output waits first =>
      cases stepped
      exact ⟨call, output, waits, first, rfl⟩
  · cases stepped

theorem closed_of_step {idx : ℕ} (stepped : session.step info (.closed idx) = some next) :
    ∃ call, session.calls[idx]? = some call ∧ session.engine.mode = .left ∧
      next = session.finish idx call call.endOfStream := by
  simp only [Session.step] at stepped
  split at stepped
  · next call waits =>
      split at stepped
      · next ends =>
          cases stepped
          exact ⟨call, waits, Mode.isLeft_iff.mp ends.1, rfl⟩
      · cases stepped
  · cases stepped

/-- Streams keep the order of what is written to them. -/
structure Ordered (session : Session) : Prop where
  read : session.engine.read <+: session.written
  consumed : session.consumed ≤ session.engine.written.length

theorem ordered_start : Ordered start := ⟨List.nil_prefix, Nat.zero_le _⟩

theorem Ordered.send (ordered : Ordered session) (cmd : EngineCommand) (calls : List Call) :
    Ordered { session.send cmd with calls } :=
  ⟨ordered.read.trans (List.prefix_append _ _), ordered.consumed⟩

/-- A frame that has been read was there. -/
theorem consumed_lt {output : EngineOutput} (first : session.incoming.head? = some output) :
    session.consumed + 1 ≤ session.engine.written.length := by
  by_contra beyond
  rw [incoming, List.drop_eq_nil_of_le (by omega)] at first
  cases first

theorem Ordered.step (ordered : Ordered session) {action : Action}
    (stepped : session.step info action = some next) : Ordered next := by
  cases action with
  | engine tick =>
      rcases engine_of_step stepped with ⟨inOrder, engine, ran, rfl⟩
      rcases step_extends ran with ⟨written, read⟩
      refine ⟨?_, ordered.consumed.trans written.length_le⟩
      change engine.read <+: session.written
      rcases read with same | more
      · exact same ▸ ordered.read
      · cases found : tick.command? with
        | none => simpa [more, found] using ordered.read
        | some cmd =>
            have first := inOrder cmd found
            rcases ordered.read with ⟨rest, split⟩
            rw [unread, ← split, List.drop_left] at first
            cases rest with
            | nil => cases first
            | cons head rest =>
                cases first
                exact ⟨rest, by rw [more, found, ← split]; simp⟩
  | startScan opId targetPath =>
      cases stepped
      exact ordered.send _ _
  | cancelScan requestId idx =>
      rcases cancelScan_of_step stepped with ⟨call, _, rfl⟩
      exact ordered.send _ _
  | cancel requestId operationId reason =>
      cases stepped
      exact ordered.send _ _
  | getChildren requestId page =>
      cases stepped
      exact ordered.send _ _
  | receive idx =>
      rcases receive_of_step stepped with ⟨call, output, _, first, rfl⟩
      have inside := consumed_lt first
      unfold Session.receive
      cases call with
      | fetching requestId page => exact ⟨ordered.read, inside⟩
      | scanning scan =>
          dsimp only
          split <;> exact ⟨ordered.read, inside⟩
  | giveUp idx =>
      simp only [Session.step] at stepped
      split at stepped
      · split at stepped
        · cases stepped
          exact ⟨ordered.read, ordered.consumed⟩
        · cases stepped
      · cases stepped
  | closed idx =>
      rcases closed_of_step stepped with ⟨call, _, _, rfl⟩
      exact ⟨ordered.read, ordered.consumed⟩

theorem reachable_ordered {Allowed : Session → Action → Prop}
    (reachable : Reachable info Allowed session) : Ordered session := by
  induction reachable with
  | start => exact ordered_start
  | step _ _ stepped ih => exact ih.step stepped

/-! ### The invariant -/

def OnlyCancels (cmds : List EngineCommand) : Prop := ∀ cmd ∈ cmds, IsCancel cmd

/-- Progress that a scan call accepts. -/
structure Upcoming (call : StartScan) (ps : List ScanProgress) : Prop where
  named : ∀ p ∈ ps, p.operationId = call.opId ∧ call.lastProgressSeq < p.sequenceNumber
  increasing : ps.Pairwise (fun p q => p.sequenceNumber < q.sequenceNumber)

theorem Upcoming.sublist {call : StartScan} {ps qs : List ScanProgress}
    (upcoming : Upcoming call ps) (fewer : qs.Sublist ps) : Upcoming call qs where
  named p mem := upcoming.named p (fewer.subset mem)
  increasing := List.Pairwise.sublist fewer upcoming.increasing

/-- What the loop of a scan has still to send. -/
def remaining (loop : ScanLoop) : List ScanProgress := loop.pendingProgress.toList ++ loop.upcoming

/-- The reply is the one the call waits for. -/
def Expected (call : Call) (reply : EngineReply) : Prop :=
  Answers call.command reply ∧
    ∀ scan response, call = .scanning scan → reply.scanResponse? = some response →
      response.operationId = scan.opId

/-- The progress before a reply; a call for children gets none. -/
def Accepts (call : Call) (ps : List ScanProgress) : Prop :=
  match call with
  | .scanning scan => Upcoming scan ps
  | .fetching _ _ => ps = []

/-- The state between two steps: the request of the call is still to be read, its scan is
under way, or its reply is on its way. -/
inductive Phase (session : Session) : Prop
  | asked (before after : List EngineCommand) (idle : session.engine.mode = .idle)
      (nothing : session.incoming = []) (single : session.calls.length ≤ 1)
      (order : session.unread = before ++ session.calls.map Call.command ++ after)
      (cancels : OnlyCancels (before ++ after))
      (fresh : ∀ scan, .scanning scan ∈ session.calls → scan.lastProgressSeq = 0)
  | underWay (call : StartScan) (task : ScanTask) (runner : Runner) (loop : ScanLoop)
      (passed coming : List ScanProgress) (waiting : session.calls = [.scanning call])
      (mode : session.engine.mode = .scanning task runner loop)
      (requests : Requests task (scanCommand call.opId call.targetPath))
      (operation : task.info.operationId = call.opId)
      (sent : loop.sent = (passed ++ coming).map .progress)
      (consumed : session.consumed = session.engine.sent.length + passed.length)
      (upcoming : Upcoming call (coming ++ remaining loop)) (cancels : OnlyCancels session.unread)
  | answered (call : Call) (coming : List ScanProgress) (reply : EngineReply)
      (idle : session.engine.mode = .idle) (waiting : session.calls = [call])
      (incoming : session.incoming = coming.map .progress ++ [.reply reply])
      (accepts : Accepts call coming) (expected : Expected call reply)
      (cancels : OnlyCancels session.unread)

/-- The invariant of timely runs. -/
structure Orderly (session : Session) : Prop extends Ordered session where
  phase : Phase session
  ended : ∀ call ending, (call, ending) ∈ session.ended → Proper call ending

theorem unread_send (read : session.engine.read <+: session.written) (cmd : EngineCommand) :
    (session.send cmd).unread = session.unread ++ [cmd] := by
  simp only [unread, send]
  exact List.drop_append_of_le_length read.length_le

theorem OnlyCancels.append {left right : List EngineCommand} (before : OnlyCancels left)
    (after : OnlyCancels right) : OnlyCancels (left ++ right) :=
  List.forall_mem_append.mpr ⟨before, after⟩

/-- A call that starts from rest waits for its request to be read. -/
theorem Orderly.ask (orderly : Orderly session) (resting : session.calls = []) {call : Call}
    (fresh : ∀ scan, call = .scanning scan → scan.lastProgressSeq = 0) :
    Orderly (session.ask call) := by
  refine ⟨orderly.toOrdered.send _ _, ?_, orderly.ended⟩
  have sent := unread_send orderly.read call.command
  have alone : (session.ask call).calls = [call] := by
    change session.calls ++ [call] = [call]
    rw [resting, List.nil_append]
  cases orderly.phase with
  | asked before after mode nothing single order cancels _ =>
      rw [resting, List.map_nil, List.append_nil] at order
      refine .asked (before ++ after) [] mode nothing ?_ ?_ ?_ ?_
      · rw [alone]
        exact le_rfl
      · change (session.send call.command).unread = _
        rw [sent, order, alone, List.append_nil]
        rfl
      · simpa using cancels
      · intro scan among
        rw [alone, List.mem_singleton] at among
        exact fresh scan among.symm
  | underWay scan task runner loop passed coming waiting =>
      rw [resting] at waiting
      cases waiting
  | answered other coming reply mode waiting =>
      rw [resting] at waiting
      cases waiting

/-- The only call that waits is the first. -/
theorem eq_of_waiting {calls : List Call} {idx : ℕ} {call only : Call} (waiting : calls = [only])
    (found : calls[idx]? = some call) : idx = 0 ∧ call = only := by
  rw [waiting, List.getElem?_singleton] at found
  split at found
  · next first =>
      cases found
      exact ⟨first, rfl⟩
  · cases found

/-- The calls with at most one of them marked as cancelled. -/
inductive Marked : List Call → List Call → Prop
  | same (calls : List Call) : Marked calls calls
  | one (scan : StartScan) :
      Marked [.scanning scan] [.scanning { scan with cancelInitiated := true }]

theorem Marked.command {calls marked : List Call} (marks : Marked calls marked) :
    marked.map Call.command = calls.map Call.command := by
  cases marks <;> rfl

theorem Marked.length_eq {calls marked : List Call} (marks : Marked calls marked) :
    marked.length = calls.length := by
  cases marks <;> rfl

theorem marked_set {calls : List Call} {idx : ℕ} {scan : StartScan} (single : calls.length ≤ 1)
    (waits : calls[idx]? = some (.scanning scan)) :
    Marked calls (calls.set idx (.scanning { scan with cancelInitiated := true })) := by
  rcases List.getElem?_eq_some_iff.mp waits with ⟨inside, _⟩
  rcases List.length_eq_one_iff.mp (show calls.length = 1 by omega) with ⟨only, rfl⟩
  rcases eq_of_waiting rfl waits with ⟨rfl, rfl⟩
  exact .one scan

/-- A cancellation joins the commands the engine has yet to read. -/
theorem Orderly.cancel (orderly : Orderly session) {cmd : EngineCommand} (cancels : IsCancel cmd)
    {calls : List Call} (marks : Marked session.calls calls) :
    Orderly { session.send cmd with calls } := by
  refine ⟨orderly.toOrdered.send cmd calls, ?_, orderly.ended⟩
  have sent := unread_send orderly.read cmd
  have last : OnlyCancels [cmd] := by
    rintro other mem
    exact List.mem_singleton.mp mem ▸ cancels
  have onlyCancels : OnlyCancels session.unread → OnlyCancels (session.send cmd).unread := by
    intro others
    rw [sent]
    exact others.append last
  cases orderly.phase with
  | asked before after mode nothing single order others fresh =>
      refine .asked before (after ++ [cmd]) mode nothing (marks.length_eq.trans_le single) ?_ ?_ ?_
      · change (session.send cmd).unread = _
        rw [sent, order, ← marks.command]
        simp
      · rw [← List.append_assoc]
        exact others.append last
      · intro scan among
        change .scanning scan ∈ calls at among
        generalize session.calls = originals at marks fresh
        cases marks with
        | same => exact fresh scan among
        | one original =>
            cases List.mem_singleton.mp among
            exact fresh original (List.mem_singleton_self _)
  | underWay scan task runner loop passed coming waiting mode requests operation loopSent consumed
      upcoming others =>
      rw [waiting] at marks
      cases marks with
      | same =>
          exact .underWay scan task runner loop passed coming rfl mode requests operation
            loopSent consumed upcoming (onlyCancels others)
      | one =>
          exact .underWay _ task runner loop passed coming rfl mode requests operation loopSent
            consumed ⟨upcoming.named, upcoming.increasing⟩ (onlyCancels others)
  | answered call coming reply mode waiting incoming accepts expected others =>
      rw [waiting] at marks
      cases marks with
      | same =>
          exact .answered call coming reply mode rfl incoming accepts expected
            (onlyCancels others)
      | one original =>
          refine .answered _ coming reply mode rfl incoming ⟨accepts.named, accepts.increasing⟩
            ⟨expected.1, ?_⟩ (onlyCancels others)
          rintro scan response ⟨⟩ shown
          exact expected.2 original response rfl shown

/-- A scan call returns with the reply it expects. -/
theorem receive_expected {call : StartScan} {reply : EngineReply}
    (expected : Expected (.scanning call) reply) :
    ∃ result, call.receive (.ofOutput (.reply reply)) = .ok (.returns result) ∧
      result.operationId = call.opId ∧ result.targetPath = call.targetPath := by
  have answers := expected.1
  have named : reply.requestId = call.opId := by
    rcases answers.named with same | ⟨-, cancel, requested, -⟩
    · exact same
    · cases requested
  have fits := answers.fits
  generalize shown : reply.payload = payload at fits
  cases fits with
  | scan request response same =>
      have operation : response.operationId = call.opId := by
        apply expected.2 call response rfl
        simp [EngineReply.scanResponse?, shown]
      refine ⟨.ofResponse call.cancelInitiated response, ?_, operation, same⟩
      simp [StartScan.receive, Received.ofOutput, StartScan.receiveResponse, Received.scanResponse,
        shown, named, operation]
  | failure request err =>
      refine ⟨call.failed reply (some err), ?_, rfl, rfl⟩
      simp [StartScan.receive, Received.ofOutput, StartScan.receiveResponse, Received.scanResponse,
        Received.error, shown, named]

/-- Progress that is accepted lets the call go on. -/
theorem receive_progress {call : StartScan} {p : ScanProgress} {ps : List ScanProgress}
    (upcoming : Upcoming call (p :: ps)) :
    call.receive (.ofOutput (.progress p)) =
        .ok (.goesOn { call with lastProgressSeq := p.sequenceNumber } p) ∧
      Upcoming { call with lastProgressSeq := p.sequenceNumber } ps := by
  have first := upcoming.named p List.mem_cons_self
  have increasing := List.pairwise_cons.mp upcoming.increasing
  constructor
  · have later : ¬p.sequenceNumber ≤ call.lastProgressSeq := UInt64.not_le.mpr first.2
    have named : ¬p.operationId ≠ call.opId := not_not.mpr first.1
    simp only [StartScan.receive, Received.ofOutput, StartScan.receiveProgress,
      Received.scanProgress, EngineReply.ok, if_neg named, if_neg later]
  · refine ⟨fun q mem => ⟨(upcoming.named q (List.mem_cons_of_mem p mem)).1, ?_⟩, increasing.2⟩
    exact increasing.1 q mem

theorem receive_goesOn {call after : StartScan} {p : ScanProgress}
    (waiting : session.calls = [.scanning call])
    (received : call.receive (.ofOutput (.progress p)) = .ok (.goesOn after p)) :
    session.receive 0 (.scanning call) (.ofOutput (.progress p)) =
      { session with consumed := session.consumed + 1, calls := [.scanning after] } := by
  simp only [Session.receive, received, waiting, List.set_cons_zero]

theorem head?_drop {α : Type} {items : List α} {count : ℕ} {first : α} {rest : List α}
    (found : items.drop count = first :: rest) :
    items.drop (count + 1) = rest ∧ count + 1 ≤ items.length := by
  constructor
  · rw [← List.drop_drop, found, List.drop_one, List.tail_cons]
  · have inside := congrArg List.length found
    rw [List.length_drop, List.length_cons] at inside
    omega

/-- A call has ended properly, and none waits. -/
theorem Orderly.finished (orderly : Orderly session) {call : Call} {ending : Ending}
    (waiting : session.calls = [call]) (mode : session.engine.mode = .idle)
    (cancels : OnlyCancels session.unread)
    (rest : session.engine.written.drop (session.consumed + 1) = [])
    (inside : session.consumed + 1 ≤ session.engine.written.length) (proper : Proper call ending) :
    Orderly ({ session with consumed := session.consumed + 1 }.finish 0 call ending) := by
  have alone : ({ session with consumed := session.consumed + 1 }.finish 0 call ending).calls =
      [] := by
    change session.calls.eraseIdx 0 = []
    rw [waiting]
    rfl
  refine ⟨⟨orderly.read, inside⟩, ?_, ?_⟩
  · refine .asked session.unread [] mode rest ?_ ?_ ?_ ?_
    · rw [alone]
      exact Nat.zero_le 1
    · rw [alone]
      simp [unread, finish]
    · simpa using cancels
    · rw [alone]
      intro scan among
      cases among
  · intro other final among
    rcases List.mem_append.mp among with earlier | last
    · exact orderly.ended other final earlier
    · cases List.mem_singleton.mp last
      exact proper

theorem Orderly.receive (orderly : Orderly session) {idx : ℕ} {call : Call}
    {output : EngineOutput} (waits : session.calls[idx]? = some call)
    (first : session.incoming.head? = some output) :
    Orderly (session.receive idx call (.ofOutput output)) := by
  cases orderly.phase with
  | asked before after mode nothing =>
      rw [nothing] at first
      cases first
  | underWay scan task runner loop passed coming waiting mode requests operation sent consumed
      upcoming cancels =>
      rcases eq_of_waiting waiting waits with ⟨rfl, rfl⟩
      have incoming : session.incoming = coming.map .progress := by
        have written : session.engine.written =
            (session.engine.sent ++ (passed.map EngineOutput.progress)) ++
              coming.map EngineOutput.progress := by
          simp only [Engine.written, mode, sent, List.map_append, List.map_map, List.append_assoc]
          rfl
        rw [Session.incoming, written, consumed]
        apply List.drop_left'
        simp
      cases coming with
      | nil =>
          rw [incoming] at first
          cases first
      | cons p coming =>
          rw [incoming] at first
          cases first
          rcases head?_drop incoming with ⟨rest, inside⟩
          rcases receive_progress upcoming with ⟨received, later⟩
          rw [receive_goesOn waiting received]
          refine ⟨⟨orderly.read, inside⟩, ?_, orderly.ended⟩
          refine .underWay _ task runner loop (passed ++ [p]) coming rfl mode requests operation
            ?_ ?_ later cancels
          · rw [sent]
            simp
          · simp [consumed, Nat.add_assoc]
  | answered only coming reply mode waiting incoming accepts expected cancels =>
      rcases eq_of_waiting waiting waits with ⟨rfl, rfl⟩
      cases coming with
      | cons p coming =>
          rw [incoming] at first
          cases first
          rcases head?_drop incoming with ⟨rest, inside⟩
          cases call with
          | fetching requestId page => cases accepts
          | scanning scan =>
              rcases receive_progress accepts with ⟨received, later⟩
              rw [receive_goesOn waiting received]
              refine ⟨⟨orderly.read, inside⟩, ?_, orderly.ended⟩
              refine .answered _ coming reply mode rfl rest later ⟨expected.1, ?_⟩ cancels
              rintro _ response ⟨⟩ shown
              exact expected.2 scan response rfl shown
      | nil =>
          rw [incoming] at first
          cases first
          rcases head?_drop incoming with ⟨rest, inside⟩
          cases call with
          | fetching requestId page =>
              exact orderly.finished waiting mode cancels rest inside ⟨rfl, expected.1⟩
          | scanning scan =>
              rcases receive_expected expected with ⟨result, received, operation, target⟩
              have next : session.receive 0 (.scanning scan) (.ofOutput (.reply reply)) =
                  { session with consumed := session.consumed + 1 }.finish 0 (.scanning scan)
                    (.scan (.ok result)) := by
                simp only [Session.receive, received]
              rw [next]
              exact orderly.finished waiting mode cancels rest inside ⟨operation, target⟩

/-! ### Steps of the engine -/

/-- A pass that reads nothing but cancellations forwards progress only. -/
theorem pass_forwards {task : ScanTask} {loop after : ScanLoop}
    (mute : ∀ cmd, tick.command? = some cmd → IsCancel cmd)
    (passed : ScanLoop.pass task tick.duringScan loop = (after, true)) :
    ∃ ps, after.sent = loop.sent ++ ps.map EngineMessage.progress ∧
      (ps ++ remaining after).Sublist (remaining loop) := by
  have drained : (remaining (loop.drain tick.arrived)).Sublist (remaining loop) := by
    have kept := ScanLoop.coalesce_sublist loop.pendingProgress (loop.upcoming.take tick.arrived)
    have all := kept.append_right (loop.upcoming.drop tick.arrived)
    rw [List.append_assoc, List.take_append_drop] at all
    exact all
  unfold ScanLoop.pass at passed
  dsimp only at passed
  split at passed
  · cases passed
  · next pending sends =>
      have sent : ∃ ps, pending.sent = loop.sent ++ ps.map EngineMessage.progress ∧
          (ps ++ remaining pending).Sublist (remaining loop) := by
        unfold ScanLoop.sendPending at sends
        split at sends
        · cases sends
          exact ⟨[], by simp [ScanLoop.drain], drained⟩
        · next p waiting =>
            split at sends
            · split at sends
              · cases sends
                refine ⟨[p], rfl, ?_⟩
                have first : (loop.drain tick.arrived).pendingProgress = some p := waiting
                rw [remaining, first] at drained
                exact drained
              · cases sends
            · cases sends
              exact ⟨[], by simp [ScanLoop.drain], drained⟩
      split at passed
      · cases passed
      · next heard =>
          cases passed
          rcases inbound_cases heard with ⟨-, rfl⟩ | ⟨cmd, read, rfl⟩
          · exact sent
          · rcases mute cmd read with ⟨cancel, requested⟩
            have silent : ScanLoop.handle task tick.duringScan pending cmd.duringScan =
                if ScanLoop.cancelMatches task cancel then { pending with cancelled := true }
                else pending := by
              simp [ScanLoop.handle, EngineCommand.duringScan, requested,
                EngineRequest.duringScan]
            rw [silent]
            split <;> exact sent

/-- Settling a scan sends what is left of the progress and the response. -/
theorem settle_forwards {task : ScanTask} {runner : Runner} {finale : ScanLoop.Finale}
    {loop final : ScanLoop} (written : finale.responseWritten = true)
    (settled : ScanLoop.settle task runner finale loop = .ok final) :
    ∃ (ps : List ScanProgress) (response : ScanResponse),
      final.sent = loop.sent ++ ps.map EngineMessage.progress ++
        [.response (Response.answer task.requestId response)] ∧
      ps.Sublist (remaining loop) ∧ response.operationId = task.info.operationId ∧
        response.targetPath = task.info.targetPath := by
  rcases Checked.bind_eq_ok.mp settled with ⟨response, built, assembled⟩
  cases assembled
  have operation : response.operationId = task.info.operationId := by
    unfold ScanLoop.scanResponse at built
    split at built
    · cases built
      rfl
    · next result joined =>
        cases result with
        | error err =>
            cases built
            rfl
        | ok graph => exact (Response.settled_fields built).1
  have kept := ScanLoop.coalesce_sublist loop.pendingProgress loop.upcoming
  have drained : ∃ ps : List ScanProgress, (ScanLoop.finalDrain finale loop).sent =
      loop.sent ++ ps.map EngineMessage.progress ∧ ps.Sublist (remaining loop) := by
    unfold ScanLoop.finalDrain ScanLoop.write
    split
    · exact ⟨[], by simp, List.nil_sublist _⟩
    · next p last =>
        rw [last] at kept
        split
        · exact ⟨[p], rfl, kept⟩
        · exact ⟨[], by simp, List.nil_sublist _⟩
  rcases drained with ⟨ps, sent, fewer⟩
  refine ⟨ps, response, ?_, fewer, operation, scanResponse_targetPath built⟩
  rw [ScanLoop.write, if_pos written]
  simp [sent]

theorem step_idle (info : EngineInfo) (working : tick.Working) {engine : Engine}
    (idle : engine.mode = .idle) :
    (tick.command? = none ∧ Engine.step info engine tick = .ok engine) ∨
      ∃ cmd, tick.command? = some cmd ∧ Engine.step info engine tick =
        Engine.dispatch info tick cmd { engine with read := engine.read ++ [cmd] } := by
  cases read : tick.command? with
  | none =>
      left
      have quiet : tick.isQuiet = true := by simpa [read] using working.readable
      simp [Engine.step, idle, Engine.serve, read, quiet]
  | some cmd =>
      right
      refine ⟨cmd, rfl, ?_⟩
      simp [Engine.step, idle, Engine.serve, read, working.prompt cmd read]

/-- The engine as it is offered the request of the call. -/
theorem asked_first {before asked after : List EngineCommand} {cmd : EngineCommand}
    (first : (before ++ asked ++ after).head? = some cmd) (single : asked.length ≤ 1)
    (cancels : OnlyCancels (before ++ after)) (other : ¬IsCancel cmd) :
    before = [] ∧ asked = [cmd] := by
  cases before with
  | cons head before =>
      cases first
      exact absurd (cancels _ (by simp)) other
  | nil =>
      refine ⟨rfl, ?_⟩
      cases asked with
      | cons given more =>
          cases first
          cases more with
          | nil => rfl
          | cons second more =>
              simp only [List.length_cons] at single
              omega
      | nil =>
          cases after with
          | nil => cases first
          | cons head after =>
              cases first
              exact absurd (cancels _ (by simp)) other

/-- The reply that a request gets at once is the one its call waits for. -/
theorem expected_of_answers {call : Call} {reply : EngineReply}
    (answers : Answers call.command reply)
    (unsettling : ∀ scan, call = .scanning scan → reply.scanResponse? = none) :
    Expected call reply := by
  refine ⟨answers, ?_⟩
  intro scan response scanning shown
  rw [unsettling scan scanning] at shown
  cases shown

/-- A call that has seen no progress accepts all that its runner will send. -/
theorem upcoming_start {call : StartScan} (fresh : call.lastProgressSeq = 0) (runner : Runner)
    (operation : call.opId = runner.operationId) :
    Upcoming call (remaining (ScanLoop.start runner)) where
  named p mem := by
    have sent : p ∈ runner.progress := mem
    unfold Runner.progress at sent
    split at sent
    · cases sent
    · have named := GraphBuilder.emitted_named runner.rt runner.operationId runner.target
        runner.undecodable runner.addressable p sent
      rw [operation, fresh]
      exact named
  increasing := ScanLoop.progress_increasing runner

/-- The request of the call is served. -/
theorem Orderly.asked (orderly : Orderly session) (working : tick.Working) {call : Call}
    {after : List EngineCommand} {engine : Engine} (idle : session.engine.mode = .idle)
    (nothing : session.incoming = []) (waiting : session.calls = [call])
    (order : session.unread = call.command :: after) (cancels : OnlyCancels after)
    (fresh : ∀ scan, call = .scanning scan → scan.lastProgressSeq = 0)
    (dispatched : Dispatched info tick call.command
      { session.engine with read := session.engine.read ++ [call.command] } engine)
    (ordered : Ordered { session with engine }) : Orderly { session with engine } := by
  have outside : session.engine.written = session.engine.sent := by
    simp only [Engine.written, idle]
  have all : session.consumed = session.engine.sent.length := by
    have drained := congrArg List.length nothing
    rw [Session.incoming, List.length_drop, List.length_nil, outside] at drained
    have bound := orderly.consumed
    rw [outside] at bound
    omega
  have unread : session.written.drop (session.engine.read ++ [call.command]).length = after := by
    rw [List.length_append, List.length_singleton]
    exact (head?_drop order).1
  -- the reply is sent at once
  have replied : ∀ (base : Engine) (reply : EngineReply),
      base.read = session.engine.read ++ [call.command] → base.sent = session.engine.sent →
        Answers call.command reply →
          (∀ scan, call = .scanning scan → reply.scanResponse? = none) →
            Phase { session with engine := base.send tick reply } := by
    intro base reply read sent answers unsettling
    have next : base.send tick reply =
        { base with mode := .idle, sent := base.sent ++ [.reply reply] } := by
      rw [Engine.send, if_pos working.replyWritten]
    rw [next]
    refine .answered call [] reply rfl waiting ?_ ?_ (expected_of_answers answers unsettling) ?_
    · change (base.sent ++ [EngineOutput.reply reply]).drop session.consumed = _
      rw [sent, all, List.drop_left]
      rfl
    · cases call with
      | scanning scan => exact ⟨by simp, .nil⟩
      | fetching requestId page => exact rfl
    · change OnlyCancels (session.written.drop base.read.length)
      rw [read, unread]
      exact cancels
  refine ⟨ordered, ?_, orderly.ended⟩
  cases dispatched with
  | plain reply answers plain =>
      exact replied _ reply rfl rfl answers fun scan _ => plain.scanResponse?_eq
  | shutdown requested =>
      cases call with
      | scanning scan => cases requested
      | fetching requestId page => cases requested
  | page page reply requested served =>
      refine replied _ reply rfl rfl (answers_getChildren requested served) ?_
      rintro scan rfl
      cases requested
  | refused reply answers plain =>
      exact replied _ reply rfl rfl answers fun scan _ => plain.scanResponse?_eq
  | begun asked requested =>
      cases call with
      | fetching requestId page => cases requested
      | scanning scan =>
          cases requested
          have named : (scanTask info tick.launch scan.opId
              { operationId := scan.opId, targetPath := scan.targetPath }).info.operationId =
                scan.opId := by
            unfold scanTask
            split <;> rfl
          refine .underWay scan _ _ _ [] [] waiting rfl ⟨rfl, _, rfl, rfl⟩ named rfl ?_ ?_ ?_
          · change session.consumed = session.engine.sent.length + 0
            exact all
          · exact upcoming_start (fresh scan rfl) _ named.symm
          · change OnlyCancels (session.written.drop (session.engine.read ++ [_]).length)
            rw [unread]
            exact cancels

theorem map_ofMessage (ps : List ScanProgress) :
    (ps.map EngineMessage.progress).map EngineOutput.ofMessage = ps.map EngineOutput.progress :=
  List.map_map

/-- What the engine reads next is what it has yet to read. -/
theorem unread_reads
    (inOrder : ∀ cmd, tick.command? = some cmd → session.unread.head? = some cmd) :
    session.unread = tick.command?.toList ++
      session.written.drop (session.engine.read ++ tick.command?.toList).length := by
  cases read : tick.command? with
  | none => simp [unread]
  | some cmd =>
      have first := inOrder cmd read
      cases order : session.unread with
      | nil =>
          rw [order] at first
          cases first
      | cons head after =>
          rw [order] at first
          cases first
          rw [Option.toList_some, List.length_append, List.length_singleton, (head?_drop order).1]
          rfl

/-- A pass of a scan under way. -/
theorem Orderly.scan (orderly : Orderly session) (working : tick.Working)
    (inOrder : ∀ cmd, tick.command? = some cmd → session.unread.head? = some cmd)
    {call : StartScan} {task : ScanTask} {runner : Runner} {loop : ScanLoop}
    {passed coming : List ScanProgress} {engine : Engine}
    (waiting : session.calls = [.scanning call])
    (requests : Requests task (scanCommand call.opId call.targetPath))
    (operation : task.info.operationId = call.opId)
    (sent : loop.sent = (passed ++ coming).map .progress)
    (consumed : session.consumed = session.engine.sent.length + passed.length)
    (upcoming : Upcoming call (coming ++ remaining loop)) (cancels : OnlyCancels session.unread)
    (ran : Engine.scan tick task runner loop session.engine = .ok engine)
    (ordered : Ordered { session with engine }) : Orderly { session with engine } := by
  refine ⟨ordered, ?_, orderly.ended⟩
  rw [unread_reads inOrder] at cancels
  rcases List.forall_mem_append.mp cancels with ⟨heard, later⟩
  have mute : ∀ cmd, tick.command? = some cmd → IsCancel cmd := by
    intro cmd read
    exact heard cmd (by simp [read])
  rcases ScanLoop.pass_orderly working.orderly task loop with ⟨after, goes⟩
  rcases pass_forwards mute goes with ⟨forwarded, added, fewer⟩
  have sentOn : after.sent = (passed ++ (coming ++ forwarded)).map .progress := by
    rw [added, sent]
    simp
  have upcomingOn : Upcoming call ((coming ++ forwarded) ++ remaining after) := by
    rw [List.append_assoc]
    exact upcoming.sublist (fewer.append_left coming)
  unfold Engine.scan at ran
  rw [goes] at ran
  dsimp only at ran
  split at ran
  · rcases Checked.bind_eq_ok.mp ran with ⟨final, settled, assembled⟩
    rcases settle_forwards working.responseWritten settled with
      ⟨last, response, sentAll, fewerLast, sameOperation, sameTarget⟩
    rw [if_pos working.responseWritten] at assembled
    cases assembled
    have written : session.engine.sent ++ final.sent.map EngineOutput.ofMessage =
        (session.engine.sent ++ passed.map EngineOutput.progress) ++
          ((coming ++ forwarded ++ last).map EngineOutput.progress ++
            [.reply (.ofCommand (Response.answer task.requestId response))]) := by
      rw [sentAll, sentOn]
      simp only [List.map_append, map_ofMessage, List.append_assoc]
      rfl
    refine .answered (.scanning call) (coming ++ forwarded ++ last)
      (.ofCommand (Response.answer task.requestId response)) rfl waiting ?_ ?_ ⟨?_, ?_⟩ later
    · change (session.engine.sent ++ final.sent.map EngineOutput.ofMessage).drop
        session.consumed = _
      rw [written, consumed]
      apply List.drop_left'
      simp
    · exact upcomingOn.sublist (fewerLast.append_left _)
    · rcases requests with ⟨named, request, requested, target⟩
      exact ⟨Or.inl named.symm, requested ▸ .scan request response (sameTarget.trans target)⟩
    · rintro scan shown ⟨⟩ ⟨⟩
      exact sameOperation.trans operation
  · cases ran
    exact .underWay call task runner after passed (coming ++ forwarded) waiting rfl requests
      operation sentOn consumed upcomingOn later

/-- A timely pass of the engine. -/
theorem Orderly.engine (orderly : Orderly session) (timely : Timely session (.engine tick))
    (inOrder : ∀ cmd, tick.command? = some cmd → session.unread.head? = some cmd) {engine : Engine}
    (ran : Engine.step info session.engine tick = .ok engine)
    (ordered : Ordered { session with engine }) : Orderly { session with engine } := by
  rcases timely with ⟨working, cancelsLate⟩
  -- an engine at rest reads nothing, or the request of the call
  have resting : session.engine.mode = .idle →
      (∀ cmd, session.unread.head? = some cmd → ¬IsCancel cmd →
        Engine.dispatch info tick cmd
            { session.engine with read := session.engine.read ++ [cmd] } = .ok engine →
          Orderly { session with engine }) →
        Orderly { session with engine } := by
    intro idle served
    rcases step_idle info working idle with ⟨-, quiet⟩ | ⟨cmd, read, serves⟩
    · rw [quiet] at ran
      cases ran
      exact orderly
    · rw [serves] at ran
      refine served cmd (inOrder cmd read) ?_ ran
      intro cancels
      have scanning := cancelsLate cmd read cancels
      rw [idle] at scanning
      cases scanning
  cases orderly.phase with
  | asked before after idle nothing single order cancels fresh =>
      apply resting idle
      intro cmd first other serves
      rw [order] at first
      have few : (session.calls.map Call.command).length ≤ 1 := by rwa [List.length_map]
      rcases asked_first first few cancels other with ⟨rfl, request⟩
      rcases List.map_eq_singleton_iff.mp request with ⟨call, waiting, rfl⟩
      rw [request] at order
      refine orderly.asked working idle nothing waiting order cancels ?_ (dispatched serves)
        ordered
      rintro scan rfl
      exact fresh scan (by simp [waiting])
  | underWay call task runner loop passed coming waiting mode requests operation sent consumed
      upcoming cancels =>
      have scans : Engine.scan tick task runner loop session.engine = .ok engine := by
        simpa only [Engine.step, mode] using ran
      exact orderly.scan working inOrder waiting requests operation sent consumed upcoming
        cancels scans ordered
  | answered call coming reply idle waiting incoming accepts expected cancels =>
      apply resting idle
      intro cmd first other serves
      exact absurd (cancels cmd (List.mem_of_mem_head? first)) other

/-! ### Runs -/

theorem Orderly.step {action : Action} (orderly : Orderly session) (timely : Timely session action)
    (stepped : session.step info action = some next) : Orderly next := by
  cases action with
  | engine tick =>
      have ordered := orderly.toOrdered.step stepped
      rcases engine_of_step stepped with ⟨inOrder, engine, ran, rfl⟩
      exact orderly.engine timely inOrder ran ordered
  | startScan opId targetPath =>
      cases stepped
      refine orderly.ask timely.1 ?_
      rintro scan ⟨⟩
      rfl
  | cancelScan requestId idx =>
      rcases cancelScan_of_step stepped with ⟨call, waits, rfl⟩
      apply orderly.cancel ⟨_, rfl⟩
      cases orderly.phase with
      | asked before after mode nothing single => exact marked_set single waits
      | underWay scan task runner loop passed coming waiting =>
          exact marked_set (waiting ▸ le_rfl) waits
      | answered other coming reply mode waiting => exact marked_set (waiting ▸ le_rfl) waits
  | cancel requestId operationId reason =>
      cases stepped
      exact orderly.cancel ⟨_, rfl⟩ (.same _)
  | getChildren requestId page =>
      cases stepped
      exact orderly.ask timely.1 (by rintro scan ⟨⟩)
  | receive idx =>
      rcases receive_of_step stepped with ⟨call, output, waits, first, rfl⟩
      exact orderly.receive waits first
  | giveUp idx => exact timely.2.elim
  | closed idx =>
      rcases closed_of_step stepped with ⟨call, waits, left, rfl⟩
      cases orderly.phase with
      | asked before after idle =>
          rw [idle] at left
          cases left
      | underWay call task runner loop passed coming waiting mode =>
          rw [mode] at left
          cases left
      | answered call coming reply idle =>
          rw [idle] at left
          cases left

namespace Sample

/-- A worker that lists two directories with three files. -/
def launch : Launch where
  system := TargetValidation.Sample.oneDrive
  workerFound := true
  cancelHandleError := none
  worker := {
    rt := GraphBuilder.Sample.runtime
    rootTarget := "c:"
    launchError := none
    readings := GraphBuilder.Sample.shared.map fun record =>
      { record, due := false, timestampIso := "" }
    undecodable := false
    exited := some 0
    addressable := by decide }
  observationStartedIso := ""
  observationCompletedIso := ""
  durationMs := 0

/-- A pass that reads a command, or finds none, and in which progress arrives. -/
def pass (command : Option EngineCommand) (finished : Bool) : Tick where
  readiness := .ok (if command.isSome then .complete else .empty)
  incompleteTooLong := false
  received := .ok command
  replyWritten := true
  testDelayMs := 0
  delayOver := false
  nowMs := 0
  uptimeMs := 0
  handleCount := 0
  pagefileUsage := none
  launch := launch
  arrived := 1
  intervalElapsed := true
  progressWritten := true
  finished := finished
  finale := ⟨true, true⟩

def page : GetChildrenRequest where
  operationId := "scan-1"
  parentId := 1
  offset := 0
  limit := 100

/-- A scan that is cancelled while the engine scans. -/
def cancelledScan : List Action := [
  .startScan "scan-1" "c:/data", .engine (pass (some (scanCommand "scan-1" "c:/data")) false),
  .cancelScan "cancel-1" 0,
  .engine (pass (some (cancelCommand "cancel-1" "scan-1" "Scan cancelled by client")) false),
  .receive 0, .engine (pass none true), .receive 0]

def engineInfo : EngineInfo where
  sessionId := "1"
  engineVersion := "1.0"
  buildDate := ""
  commitHash := ""

instance (tick : Tick) : Decidable tick.Working :=
  decidable_of_iff ((tick.command?.isSome = true ∨ tick.isQuiet = true) ∧
    tick.replyWritten = true ∧ tick.progressWritten = true ∧
      tick.finale.responseWritten = true ∧ ∀ cmd ∈ tick.command?, effectiveDelay tick cmd = 0)
    ⟨fun all => ⟨all.1, all.2.1, all.2.2.1, all.2.2.2.1, all.2.2.2.2⟩,
      fun works => ⟨works.readable, works.replyWritten, works.progressWritten,
        works.responseWritten, works.prompt⟩⟩

def isCancel (cmd : EngineCommand) : Bool :=
  match cmd.request with
  | some (.cancel _) => true
  | _ => false

theorem isCancel_of {cmd : EngineCommand} (cancels : IsCancel cmd) : isCancel cmd = true := by
  rcases cancels with ⟨cancel, requested⟩
  rw [isCancel, requested]

/-- Checks of a step. -/
def isSequential (session : Session) : Action → Bool
  | .engine tick => decide tick.Working
  | .startScan _ _ => session.calls.isEmpty
  | .getChildren _ _ => session.calls.isEmpty
  | _ => true

def isInTime (session : Session) : Action → Bool
  | .engine tick => !tick.command?.any isCancel || session.engine.mode.isScanning
  | .giveUp _ => false
  | _ => true

def isTimely (session : Session) (action : Action) : Bool :=
  isSequential session action && isInTime session action

theorem sequential_of_isSequential (session : Session) (action : Action)
    (checks : isSequential session action = true) : Sequential session action := by
  cases action with
  | engine tick =>
      have working : tick.Working := of_decide_eq_true checks
      exact working
  | startScan opId targetPath => exact List.isEmpty_iff.mp checks
  | getChildren requestId page => exact List.isEmpty_iff.mp checks
  | _ => trivial

theorem timely_of_isTimely (session : Session) (action : Action)
    (checks : isTimely session action = true) : Timely session action := by
  rw [isTimely, Bool.and_eq_true] at checks
  refine ⟨sequential_of_isSequential session action checks.1, ?_⟩
  cases action with
  | engine tick =>
      intro cmd read cancels
      have inTime := checks.2
      rw [isInTime, Bool.or_eq_true, Bool.not_eq_true', read, Option.any_some,
        isCancel_of cancels] at inTime
      rcases inTime with never | scanning
      · cases never
      · exact scanning
  | giveUp idx => cases checks.2
  | _ => trivial

/-- The session after steps that pass a check. -/
def play (check : Session → Action → Bool) (session : Session) : List Action → Option Session
  | [] => some session
  | action :: actions =>
      if check session action then
        match session.step engineInfo action with
        | some next => play check next actions
        | none => none
      else none

theorem reachable_play {check : Session → Action → Bool} {Allowed : Session → Action → Prop}
    (sound : ∀ session action, check session action = true → Allowed session action)
    {actions : List Action} (reachable : Reachable engineInfo Allowed session)
    (played : play check session actions = some next) : Reachable engineInfo Allowed next := by
  induction actions generalizing session with
  | nil =>
      cases played
      exact reachable
  | cons action actions ih =>
      rw [play] at played
      split at played
      · next checks =>
          split at played
          · next later stepped =>
              exact ih (.step reachable (sound _ _ checks) stepped) played
          · cases played
      · cases played

end Sample

/-- In every state of rest that a working session reaches, a cancellation whose reply nobody
awaits goes before the next call for children: a run exists in which the call takes that
reply for its own and throws. -/
theorem cancel_at_rest (reachable : Reachable info Works session) (resting : session.calls = [])
    (idle : session.engine.mode = .idle) (allRead : session.unread = [])
    (drained : session.incoming = []) (working : tick.Working)
    {requestId operationId reason : String}
    (late : tick.command? = some (cancelCommand requestId operationId reason)) (pageId : String)
    (page : GetChildrenRequest) :
    ∃ cancelled asked answered final frame,
      session.step info (.cancel requestId operationId reason) = some cancelled ∧
        cancelled.step info (.getChildren pageId page) = some asked ∧
        asked.step info (.engine tick) = some answered ∧
        answered.step info (.receive 0) = some final ∧
        final.ended = session.ended ++ [(.fetching pageId page, .children (.ok frame))] ∧
        Answers (cancelCommand requestId operationId reason) frame.response ∧
        receiveChildren frame = .error (.invalidData
          "GetChildren response variant not present in CommandResponse") := by
  have ordered := reachable_ordered reachable
  let cmd := cancelCommand requestId operationId reason
  let reply := EngineReply.ok requestId (.command (.cancel (cancelReply ⟨operationId, reason⟩)))
  let after : Engine :=
    { session.engine with
      mode := .idle
      read := session.engine.read ++ [cmd]
      sent := session.engine.sent ++ [.reply reply] }
  let asked := (session.send cmd).ask (.fetching pageId page)
  have ran : Engine.step info session.engine tick = .ok after := by
    rcases step_idle info working idle with ⟨silent, -⟩ | ⟨other, read, serves⟩
    · rw [late] at silent
      cases silent
    · rw [late, Option.some.injEq] at read
      rw [serves, ← read]
      change Except.ok (Engine.send tick reply _) = _
      rw [Engine.send, if_pos working.replyWritten]
  have inOrder : ∀ other, tick.command? = some other → asked.unread.head? = some other := by
    intro other read
    rw [late, Option.some.injEq] at read
    have sent := unread_send ordered.read cmd
    rw [allRead, List.nil_append] at sent
    change ((session.send cmd).send (getChildrenCommand pageId page)).unread.head? = _
    rw [unread_send (ordered.send cmd _).read, sent, ← read]
    rfl
  have answered := step_engine inOrder ran
  have waits : asked.calls = [.fetching pageId page] := by
    change session.calls ++ _ = _
    rw [resting, List.nil_append]
  have first : (after.written.drop session.consumed).head? = some (.reply reply) := by
    have outside : session.engine.written = session.engine.sent := by
      simp only [Engine.written, idle]
    have inside := ordered.consumed
    rw [outside] at inside
    rw [Session.incoming, outside] at drained
    change ((session.engine.sent ++ [EngineOutput.reply reply]).drop session.consumed).head? = _
    rw [List.drop_append_of_le_length inside, drained]
    rfl
  have received : { asked with engine := after }.step info (.receive 0) =
      some ({ asked with engine := after }.receive 0 (.fetching pageId page)
        (.ofOutput (.reply reply))) := by
    refine step_receive ?_ first
    change asked.calls[0]? = _
    rw [waits, List.getElem?_cons_zero]
  refine ⟨_, _, _, _, .ofOutput (.reply reply), rfl, rfl, answered, received, rfl, ?_, rfl⟩
  exact ⟨Or.inl rfl, .cancel _ _⟩

/-- The scan has settled when the user cancels, and the tree asks for its root. -/
theorem cancel_at_rest_cancelled :
    ∃ (session cancelled asked answered final : Session) (frame : Received),
      session.step Sample.engineInfo (.cancel "cancel-2" "scan-1" "late") = some cancelled ∧
        cancelled.step Sample.engineInfo (.getChildren "get-1" Sample.page) = some asked ∧
        asked.step Sample.engineInfo (.engine (Sample.pass
          (some (cancelCommand "cancel-2" "scan-1" "late")) false)) = some answered ∧
        answered.step Sample.engineInfo (.receive 0) = some final ∧
        final.ended =
          session.ended ++ [(.fetching "get-1" Sample.page, .children (.ok frame))] ∧
        Answers (cancelCommand "cancel-2" "scan-1" "late") frame.response ∧
        receiveChildren frame = .error (.invalidData
          "GetChildren response variant not present in CommandResponse") := by
  have ends : (Sample.play Sample.isTimely start Sample.cancelledScan).map (fun session =>
      (session.calls, session.engine.mode.isIdle, session.unread, session.incoming)) =
        some ([], true, [], []) := by
    decide +kernel
  rcases Option.map_eq_some_iff.mp ends with ⟨session, played, rest⟩
  simp only [Prod.mk.injEq] at rest
  rcases rest with ⟨resting, idle, allRead, drained⟩
  have reachable := (Sample.reachable_play Sample.timely_of_isTimely .start played).mono works_of_timely
  have working : (Sample.pass (some (cancelCommand "cancel-2" "scan-1" "late")) false).Working := by
    decide +kernel
  exact ⟨session, cancel_at_rest reachable resting (Mode.isIdle_iff.mp idle) allRead drained
    working rfl "get-1" Sample.page⟩

end Session

end PigTree.Client
