import PigTree.Engine.Conversation

/-!
# Runs of the engine

No pass of the engine fails: the graph it serves children from was built from records its
builder accepted. So every run has an outcome. Each scan response settles the scan of one
worker, and every page of children shows the records that this worker has written.
-/

namespace PigTree

open Foundation GraphBuilder

namespace EngineReply

def scanResponse? (reply : EngineReply) : Option ScanResponse :=
  match reply.payload with
  | some (.command (.scanResponse response)) => some response
  | _ => none

def page? (reply : EngineReply) : Option GetChildrenResponse :=
  match reply.payload with
  | some (.command (.getChildren page)) => some page
  | _ => none

theorem IsPlain.scanResponse?_eq {reply : EngineReply} (plain : reply.IsPlain) :
    reply.scanResponse? = none := by
  unfold scanResponse?
  split
  · next response shown => exact absurd shown (plain.1 response)
  · rfl

theorem IsPlain.page?_eq {reply : EngineReply} (plain : reply.IsPlain) : reply.page? = none := by
  unfold page?
  split
  · next page shown => exact absurd shown (plain.2 page)
  · rfl

end EngineReply

namespace Engine

open EngineReply

/-- The scan responses among the replies. -/
def scanResponses (replies : List EngineReply) : List ScanResponse :=
  replies.filterMap scanResponse?

/-- The response settles a scan that this worker was launched for. -/
def Settles (worker : WorkerRun) (response : ScanResponse) : Prop :=
  ∃ task loop,
    ScanLoop.scanResponse task (worker.runner task.info.operationId) loop = .ok response

/-- The page shows children as the records of the worker list them, under the operation of
the response. -/
inductive Served (worker : WorkerRun) (response : ScanResponse) (page : GetChildrenResponse) :
    Prop
  | intro {builder : GraphBuilder} {graph : DirectoryGraph} {limit : ℕ}
      (reached : Reached worker.rootTarget builder (worker.readings.map Reading.record))
      (built : builder.finish worker.rt = .ok (.ok graph))
      (operation : page.operationId = response.operationId)
      (positive : 0 < limit) (bounded : limit ≤ 500)
      (shown : reached.snapshot.page worker.rt (streamsOf (worker.readings.map Reading.record))
        page.parentId page.offset.toNat limit = .ok (page.totalChildren.toNat, page.nodes))

/-- The scan response written last, with the worker behind it. -/
def lastScan (behind : List WorkerRun) (replies : List EngineReply) :
    Option (WorkerRun × ScanResponse) :=
  (behind.zip (scanResponses replies)).getLast?

/-- One worker is behind each scan response, and every page is served from the response that
was written last before it. -/
structure Faithful (behind : List WorkerRun) (replies : List EngineReply) : Prop where
  settles : List.Forall₂ Settles behind (scanResponses replies)
  served : ∀ before reply after page, replies = before ++ reply :: after →
    reply.page? = some page → ∃ worker response,
      lastScan behind before = some (worker, response) ∧ Served worker response page

variable {info : EngineInfo} {tick : Tick} {cmd : EngineCommand} {engine next : Engine}
  {task : ScanTask} {runner : Runner} {loop : ScanLoop} {behind : List WorkerRun}
  {worker : WorkerRun} {written : List EngineReply} {reply : EngineReply}

theorem faithful_nil : Faithful [] [] where
  settles := .nil
  served := by
    intro before reply after page split
    simp at split

theorem scanResponses_concat_none (other : reply.scanResponse? = none) :
    scanResponses (written ++ [reply]) = scanResponses written := by
  simp [scanResponses, other]

theorem scanResponses_concat_some {response : ScanResponse}
    (settles : reply.scanResponse? = some response) :
    scanResponses (written ++ [reply]) = scanResponses written ++ [response] := by
  simp [scanResponses, settles]

theorem lastScan_concat_none (other : reply.scanResponse? = none) :
    lastScan behind (written ++ [reply]) = lastScan behind written := by
  rw [lastScan, scanResponses_concat_none other, lastScan]

theorem Faithful.length_eq (faithful : Faithful behind written) :
    behind.length = (scanResponses written).length := faithful.settles.length_eq

/-- A later worker is behind no earlier response. -/
theorem Faithful.lastScan_concat (faithful : Faithful behind written) {before : List EngineReply}
    (earlier : before <+: written) (worker : WorkerRun) :
    lastScan (behind ++ [worker]) before = lastScan behind before := by
  rcases earlier with ⟨rest, rfl⟩
  have few : (scanResponses before).length ≤ behind.length := by
    rw [faithful.length_eq, scanResponses, scanResponses, List.filterMap_append,
      List.length_append]
    exact Nat.le_add_right _ _
  rw [lastScan, lastScan]
  congr 1
  rw [List.zip_eq_zip_take_min, @List.zip_eq_zip_take_min _ _ behind, List.length_append,
    Nat.min_eq_right few, Nat.min_eq_right (few.trans (Nat.le_add_right _ _)),
    List.take_append_of_le_length few]

theorem Faithful.concat (faithful : Faithful behind written)
    (other : reply.scanResponse? = none)
    (served : ∀ page, reply.page? = some page → ∃ worker response,
      lastScan behind written = some (worker, response) ∧ Served worker response page) :
    Faithful behind (written ++ [reply]) where
  settles := by
    rw [scanResponses_concat_none other]
    exact faithful.settles
  served := by
    intro before answer after page split shown
    rcases List.eq_nil_or_concat after with rfl | ⟨inner, last, rfl⟩
    · rcases List.append_inj' split rfl with ⟨rfl, same⟩
      cases same
      exact served page shown
    · rw [List.concat_eq_append, ← List.cons_append, ← List.append_assoc] at split
      exact faithful.served before answer inner page (List.append_inj' split rfl).1 shown

theorem Faithful.concat_plain (faithful : Faithful behind written) (plain : reply.IsPlain) :
    Faithful behind (written ++ [reply]) := by
  apply faithful.concat plain.scanResponse?_eq
  intro page shown
  rw [plain.page?_eq] at shown
  cases shown

/-- Replies that are plain leave the pages and the scan responses as they were. -/
theorem Faithful.append_plain {replies : List EngineReply} (faithful : Faithful behind written)
    (plain : ∀ reply ∈ replies, reply.IsPlain) : Faithful behind (written ++ replies) := by
  induction replies using List.reverseRecOn with
  | nil => simpa using faithful
  | append_singleton replies reply ih =>
      rw [List.forall_mem_append, List.forall_mem_singleton] at plain
      rw [← List.append_assoc]
      exact (ih plain.1).concat_plain plain.2

theorem Faithful.of_append_plain {replies : List EngineReply}
    (faithful : Faithful behind (written ++ replies)) (plain : ∀ reply ∈ replies, reply.IsPlain) :
    Faithful behind written where
  settles := by
    have settles := faithful.settles
    have none : scanResponses replies = [] :=
      List.filterMap_eq_nil_iff.mpr fun reply mem => (plain reply mem).scanResponse?_eq
    rwa [scanResponses, List.filterMap_append, ← scanResponses, ← scanResponses, none,
      List.append_nil] at settles
  served := by
    intro before answer after page split shown
    exact faithful.served before answer (after ++ replies) page (by simp [split]) shown

theorem Faithful.concat_scan (faithful : Faithful behind written) {response : ScanResponse}
    (answers : reply.scanResponse? = some response) (noPage : reply.page? = none)
    (settles : Settles worker response) :
    Faithful (behind ++ [worker]) (written ++ [reply]) ∧
      lastScan (behind ++ [worker]) (written ++ [reply]) = some (worker, response) := by
  have last : lastScan (behind ++ [worker]) (written ++ [reply]) = some (worker, response) := by
    rw [lastScan, scanResponses_concat_some answers, List.zip_append faithful.length_eq]
    exact List.getLast?_concat
  refine ⟨?_, last⟩
  constructor
  · rw [scanResponses_concat_some answers]
    exact List.rel_append faithful.settles (.cons settles .nil)
  · intro before answer after page split shown
    rcases List.eq_nil_or_concat after with rfl | ⟨inner, final, rfl⟩
    · rcases List.append_inj' split rfl with ⟨rfl, same⟩
      cases same
      rw [noPage] at shown
      cases shown
    · rw [List.concat_eq_append, ← List.cons_append, ← List.append_assoc] at split
      have earlier := (List.append_inj' split rfl).1
      rw [faithful.lastScan_concat (earlier ▸ List.prefix_append before (answer :: inner))]
      exact faithful.served before answer inner page earlier shown

/-! ### The invariant -/

/-- The graph that children are served from was built for the last scan response. -/
def Backed (behind : List WorkerRun) (settledScan : Option SettledScan)
    (written : List EngineReply) : Prop :=
  ∀ settled, settledScan = some settled → ∃ worker response,
    lastScan behind written = some (worker, response) ∧
      response.operationId = settled.operationId ∧
        GraphBuilder.buildFromReader worker.rt worker.rootTarget
          (worker.readings.map Reading.record) = .ok (.ok settled.graph)

/-- What holds between two passes; a scan in progress drives the given worker. -/
structure Sound (behind : List WorkerRun) (driving : Option WorkerRun) (engine : Engine) :
    Prop where
  faithful : Faithful behind (replies engine.written)
  backed : engine.mode ≠ .left → Backed behind engine.settledScan (replies engine.sent)
  scanning : ∀ task runner loop, engine.mode = .scanning task runner loop →
    engine.settledScan = none ∧ (∀ reply ∈ loopReplies loop, reply.IsPlain) ∧
      ∃ worker, driving = some worker ∧ runner = worker.runner task.info.operationId

variable {driving : Option WorkerRun}

theorem sound_start : Sound [] none start where
  faithful := faithful_nil
  backed := by
    rintro - settled ⟨⟩
  scanning := by
    rintro task runner loop ⟨⟩

theorem backed_none (behind : List WorkerRun) (written : List EngineReply) :
    Backed behind none written := by
  rintro settled ⟨⟩

/-- Outside a scan. -/
structure Resting (behind : List WorkerRun) (engine : Engine) : Prop where
  faithful : Faithful behind (replies engine.sent)
  backed : Backed behind engine.settledScan (replies engine.sent)

theorem Sound.resting (sound : Sound behind driving engine)
    (outside : engine.written = engine.sent) (present : engine.mode ≠ .left) :
    Resting behind engine where
  faithful := outside ▸ sound.faithful
  backed := sound.backed present

theorem written_outside (still : engine.mode.isScanning = false) :
    engine.written = engine.sent := by
  unfold Engine.written
  split
  · next task runner loop scanning =>
      rw [scanning] at still
      cases still
  · rfl

theorem Resting.sound (resting : Resting behind engine) (still : engine.mode.isScanning = false) :
    Sound behind driving engine where
  faithful := by
    rw [written_outside still]
    exact resting.faithful
  backed _ := resting.backed
  scanning := by
    intro task runner loop scanning
    rw [scanning] at still
    cases still

theorem sound_left (left : engine.mode = .left) (faithful : Faithful behind (replies engine.sent)) :
    Sound behind driving engine where
  faithful := by simpa [Engine.written, left] using faithful
  backed present := absurd left present
  scanning := by
    intro task runner loop scanning
    rw [left] at scanning
    cases scanning

theorem sound_leave (faithful : Faithful behind (replies engine.sent)) :
    Sound behind driving engine.leave :=
  sound_left rfl faithful

theorem Resting.send (resting : Resting behind engine) (other : reply.scanResponse? = none)
    (served : ∀ page, reply.page? = some page → ∃ worker response,
      lastScan behind (replies engine.sent) = some (worker, response) ∧
        Served worker response page) :
    Sound behind driving (engine.send tick reply) := by
  unfold Engine.send
  split
  · apply Resting.sound ?_ rfl
    constructor
    · simpa using resting.faithful.concat other served
    · simpa [Backed, lastScan_concat_none other] using resting.backed
  · exact sound_leave resting.faithful

theorem Resting.sendPlain (resting : Resting behind engine) (plain : reply.IsPlain) :
    Sound behind driving (engine.send tick reply) := by
  apply resting.send plain.scanResponse?_eq
  intro page shown
  rw [plain.page?_eq] at shown
  cases shown

/-! ### Requests for children -/

theorem length_childIds_lt {rt : Runtime} {s : Snapshot} {parentId : UInt32} {ids : List UInt32}
    (short : s.entries.length < 2 ^ 32) (listed : s.childIds rt parentId = .ok ids) :
    ids.length < 2 ^ 32 := by
  unfold Snapshot.childIds at listed
  split at listed
  · cases listed
    cases s.entries <;> simp
  · split at listed
    · cases listed
    · split at listed
      · cases listed
      · cases listed
        rw [List.length_map, (s.orderedChildren_perm rt parentId).length_eq]
        exact (List.length_filter_le _ _).trans_lt short

theorem total_lt {rt : Runtime} {s : Snapshot} {streams : List StreamObservation}
    {parentId : UInt32} {offset limit : ℕ} {listed : ℕ × List DirectoryEntryNode}
    (short : s.entries.length < 2 ^ 32)
    (answer : s.page rt streams parentId offset limit = .ok listed) : listed.1 < 2 ^ 32 := by
  rw [Snapshot.page] at answer
  cases ids : s.childIds rt parentId with
  | error err =>
      rw [ids] at answer
      cases answer
  | ok children =>
      rw [ids] at answer
      cases answer
      exact length_childIds_lt short ids

theorem pageLimit_bounds {page : GetChildrenRequest} (within : ¬500 < pageLimit page) :
    0 < (pageLimit page).toNat ∧ (pageLimit page).toNat ≤ 500 := by
  have upper := UInt32.le_iff_toNat_le.mp (UInt32.not_lt.mp within)
  refine ⟨?_, upper⟩
  unfold pageLimit
  split
  · decide
  · next given =>
      apply Nat.pos_of_ne_zero
      intro zero
      exact given (UInt32.toNat_inj.mp zero)

/-- A request for children is answered from the last scan or refused. -/
theorem getChildren_ok {settledScan : Option SettledScan}
    (backed : Backed behind settledScan written) (requestId : String) (page : GetChildrenRequest) :
    ∃ reply, getChildren settledScan requestId page = .ok reply ∧ reply.scanResponse? = none ∧
      ∀ shown, reply.page? = some shown → ∃ worker response,
        lastScan behind written = some (worker, response) ∧ Served worker response shown := by
  have failure : ∀ code message, (EngineReply.failure requestId code message).scanResponse? = none ∧
      ∀ shown, (EngineReply.failure requestId code message).page? = some shown →
        ∃ worker response, lastScan behind written = some (worker, response) ∧
          Served worker response shown := fun code message => ⟨rfl, by rintro shown ⟨⟩⟩
  unfold getChildren
  split
  · exact ⟨_, rfl, failure _ _⟩
  · next settled =>
      split
      · exact ⟨_, rfl, failure _ _⟩
      next same =>
      split
      · exact ⟨_, rfl, failure _ _⟩
      · next bounded =>
          rcases backed settled rfl with ⟨worker, response, last, operation, built⟩
          rcases buildFromReader_eq_ok built with ⟨err, none⟩ | ⟨builder, reached, finished⟩
          · cases none
          have paged := reached.getChildrenPage_eq finished page.parentId page.offset.toNat
            (pageLimit page).toNat
          rw [paged, Checked.ok_bind]
          cases answer : reached.snapshot.page worker.rt _ page.parentId page.offset.toNat
              (pageLimit page).toNat with
          | error err => exact ⟨_, rfl, failure _ _⟩
          | ok listed =>
              refine ⟨_, rfl, rfl, ?_⟩
              rintro shown ⟨⟩
              have total : listed.1 < 2 ^ 32 := by
                exact total_lt (reached.finished finished).1.short answer
              have limits := pageLimit_bounds bounded
              refine ⟨worker, response, last, .intro reached finished ?_ limits.1 limits.2 ?_⟩
              · rw [operation]
                exact (not_not.mp same).symm
              · rw [answer, UInt32.toNat_ofNat_of_lt' total]

/-! ### Passes -/

theorem Resting.dispatched (resting : Resting behind engine)
    (dispatched : Dispatched info tick cmd engine next) :
    Sound behind (some tick.launch.worker) next := by
  have cleared : Resting behind { engine with settledScan := none } :=
    ⟨resting.faithful, backed_none _ _⟩
  cases dispatched with
  | plain reply answers plain => exact resting.sendPlain plain
  | shutdown requested =>
      apply sound_leave
      have sent : Sound behind none (engine.send tick (.ok cmd.requestId (.shutdown 0))) :=
        resting.sendPlain (by constructor <;> rintro _ ⟨⟩)
      have faithful := sent.faithful
      rwa [written_send] at faithful
  | page page reply requested served =>
      rcases getChildren_ok resting.backed cmd.requestId page with ⟨other, built, unsettling, shown⟩
      rw [served] at built
      cases built
      exact resting.send unsettling shown
  | refused reply answers plain => exact cleared.sendPlain plain
  | begun request requested =>
      constructor
      · simpa [Engine.written, startRunner, ScanLoop.start] using resting.faithful
      · intro present
        exact backed_none _ _
      · rintro task runner loop ⟨⟩
        exact ⟨rfl, by simp [loopReplies, ScanLoop.start, replies], _, rfl, rfl⟩

/-- A command is always served. -/
theorem dispatch_ok (resting : Resting behind engine) (info : EngineInfo) (tick : Tick)
    (cmd : EngineCommand) :
    ∃ next, Engine.dispatch info tick cmd engine = .ok next ∧
      Sound behind (some tick.launch.worker) next := by
  have served : ∃ next, Engine.dispatch info tick cmd engine = .ok next := by
    cases requested : cmd.request with
    | none =>
        simp only [Engine.dispatch, requested]
        exact ⟨_, rfl⟩
    | some request =>
        cases request with
        | getChildren page =>
            rcases getChildren_ok resting.backed cmd.requestId page with ⟨reply, built, -, -⟩
            simp only [Engine.dispatch, requested, built]
            exact ⟨_, rfl⟩
        | _ =>
            simp only [Engine.dispatch, requested]
            exact ⟨_, rfl⟩
  rcases served with ⟨next, ran⟩
  exact ⟨next, ran, resting.dispatched (Engine.dispatched ran)⟩

theorem Resting.read (resting : Resting behind engine) (cmd : EngineCommand) :
    Resting behind { engine with read := engine.read ++ [cmd] } :=
  ⟨resting.faithful, resting.backed⟩

theorem Resting.quiet (resting : Resting behind engine)
    (sound : Sound behind (some tick.launch.worker) engine) :
    Sound behind (some tick.launch.worker) (if tick.isQuiet then engine else engine.leave) := by
  split
  · exact sound
  · exact sound_leave resting.faithful

theorem Sound.serve (sound : Sound behind driving engine) (idle : engine.mode = .idle)
    (info : EngineInfo) (tick : Tick) :
    ∃ next, Engine.serve info tick engine = .ok next ∧
      Sound behind (some tick.launch.worker) next := by
  have still : engine.mode.isScanning = false := by rw [idle]; rfl
  have resting := sound.resting (written_outside still) (by simp [idle])
  unfold Engine.serve
  split
  · next cmd read =>
      dsimp only
      split
      · have waiting : Resting behind
            { engine with mode := .delaying cmd, read := engine.read ++ [cmd] } :=
          ⟨resting.faithful, resting.backed⟩
        exact ⟨_, rfl, waiting.sound rfl⟩
      · exact dispatch_ok (resting.read cmd) info tick cmd
  · exact ⟨_, rfl, resting.quiet (resting.sound still)⟩

theorem Sound.wait {waiting : EngineCommand} (sound : Sound behind driving engine)
    (delayed : engine.mode = .delaying waiting) (info : EngineInfo) (tick : Tick) :
    ∃ next, Engine.wait info tick waiting engine = .ok next ∧
      Sound behind (some tick.launch.worker) next := by
  have still : engine.mode.isScanning = false := by rw [delayed]; rfl
  have resting := sound.resting (written_outside still) (by simp [delayed])
  unfold Engine.wait
  split
  · exact dispatch_ok resting info tick waiting
  · split
    · next cmd read =>
        dsimp only
        split
        · next cancel requested =>
            refine ⟨_, rfl, Resting.sound ?_ rfl⟩
            have plain : (delayCancelled cmd cancel).IsPlain := by constructor <;> rintro _ ⟨⟩
            constructor
            · dsimp only
              split
              · simpa using resting.faithful.concat_plain plain
              · exact resting.faithful
            · dsimp only
              split
              · simpa [Backed, lastScan_concat_none plain.scanResponse?_eq] using resting.backed
              · exact resting.backed
        · exact ⟨_, rfl, (resting.read cmd).sound still⟩
    · exact ⟨_, rfl, resting.quiet (resting.sound still)⟩

theorem Heard.plain {after : ScanLoop} (heard : Heard tick loop after)
    (plain : ∀ reply ∈ loopReplies loop, reply.IsPlain) :
    ∀ reply ∈ loopReplies after, reply.IsPlain := by
  cases heard with
  | nothing silent same => exact same ▸ plain
  | unanswered cmd read reason same => exact same ▸ plain
  | answered cmd reply read answers isPlain added =>
      rw [added, List.forall_mem_append, List.forall_mem_singleton]
      exact ⟨plain, isPlain⟩

/-- The graph that a scan leaves was built from the readings of its worker. -/
theorem settledBy_built {response : ScanResponse} {settled : SettledScan}
    (left : settledBy task (worker.runner task.info.operationId) = some settled)
    (built : ScanLoop.scanResponse task (worker.runner task.info.operationId) loop =
      .ok response) :
    response.operationId = settled.operationId ∧
      GraphBuilder.buildFromReader worker.rt worker.rootTarget
        (worker.readings.map Reading.record) = .ok (.ok settled.graph) := by
  unfold settledBy at left
  split at left
  · next graph joined =>
      cases left
      unfold ScanLoop.scanResponse at built
      rw [joined] at built
      have reported : Response.settled task.info graph = .ok response := built
      exact ⟨(Response.settled_fields reported).1, ScanLoop.joined_graph joined⟩
  · cases left

/-! ### The workers behind the responses -/

/-- A run, with the workers behind the scan responses written so far and the worker of the
last pass that met no scan. A scan in progress began in that pass. -/
structure Trace where
  engine : Engine
  driving : Option WorkerRun
  behind : List WorkerRun

namespace Trace

def start : Trace where
  engine := .start
  driving := none
  behind := []

/-- The engine turns idle after a scan if it has written the response. -/
def advance (trace : Trace) (tick : Tick) (next : Engine) : Trace :=
  if trace.engine.mode.isScanning then
    { trace with
      engine := next
      behind := if next.mode.isIdle then trace.behind ++ trace.driving.toList else trace.behind }
  else { trace with engine := next, driving := some tick.launch.worker }

def step (info : EngineInfo) (trace : Trace) (tick : Tick) : Checked Trace := do
  let next ← trace.engine.step info tick
  return trace.advance tick next

def run (info : EngineInfo) (ticks : List Tick) : Checked Trace :=
  ticks.foldlM (step info) start

end Trace

variable {trace : Trace}

theorem Trace.advance_engine (trace : Trace) (tick : Tick) (next : Engine) :
    (trace.advance tick next).engine = next := by
  unfold Trace.advance
  split <;> rfl

theorem Trace.advance_outside (resting : trace.engine.mode.isScanning = false) (tick : Tick)
    (next : Engine) : trace.advance tick next = ⟨next, some tick.launch.worker, trace.behind⟩ := by
  rw [Trace.advance, resting]
  rfl

theorem Trace.advance_scanning (scanning : trace.engine.mode = .scanning task runner loop)
    (tick : Tick) (next : Engine) : trace.advance tick next =
      ⟨next, trace.driving,
        if next.mode.isIdle then trace.behind ++ trace.driving.toList else trace.behind⟩ := by
  rw [Trace.advance, scanning]
  rfl

/-- The invariant of a run with its workers. -/
def Trace.Sound (trace : Trace) : Prop := Engine.Sound trace.behind trace.driving trace.engine

theorem scan_ok (tick : Tick) (task : ScanTask) (runner : Runner) (loop : ScanLoop)
    (engine : Engine) : ∃ next, Engine.scan tick task runner loop engine = .ok next := by
  unfold Engine.scan
  split
  · exact ⟨_, rfl⟩
  · next after passed =>
      dsimp only
      split
      · rcases ScanLoop.scanResponse_ok task runner (ScanLoop.finalDrain tick.finale after) with
          ⟨response, built⟩
        unfold ScanLoop.settle
        dsimp only
        rw [built]
        exact ⟨_, rfl⟩
      · exact ⟨_, rfl⟩

/-- A pass of a scan; its worker is behind the response that settles it. -/
theorem Trace.Sound.scan (sound : trace.Sound)
    (scanning : trace.engine.mode = .scanning task runner loop)
    (ran : Engine.scan tick task runner loop trace.engine = .ok next) :
    (trace.advance tick next).Sound := by
  rcases Engine.Sound.scanning sound task runner loop scanning with
    ⟨dropped, plain, worker, drives, rfl⟩
  have whole : Faithful trace.behind (replies trace.engine.sent ++ loopReplies loop) := by
    have faithful := Engine.Sound.faithful sound
    simp only [Engine.written, scanning, replies_append] at faithful
    exact faithful
  have sent := whole.of_append_plain plain
  rw [Trace.advance_scanning scanning, Trace.Sound]
  cases scanned ran with
  | leaves after same broken =>
      apply sound_left rfl
      rw [← same] at whole
      exact (replies_append _ _).symm ▸ whole
  | goesOn after heard =>
      have plainAfter := heard.plain plain
      constructor
      · exact (replies_append _ _).symm ▸ sent.append_plain plainAfter
      · intro present
        rw [dropped]
        exact backed_none _ _
      · rintro _ _ _ ⟨⟩
        exact ⟨dropped, plainAfter, worker, drives, rfl⟩
  | settles after drained final response heard built added =>
      have before := sent.append_plain (heard.plain plain)
      have joined : replies (trace.engine.sent ++ final.sent.map .ofMessage) =
          replies trace.engine.sent ++ loopReplies final := replies_append _ _
      split
      · next answered =>
          rw [if_pos answered] at added
          have answers : (EngineReply.ofCommand
              (Response.answer task.requestId response)).scanResponse? = some response := rfl
          rcases before.concat_scan answers rfl ⟨task, drained, built⟩ with ⟨faithful, last⟩
          rw [List.append_assoc, ← added, ← joined] at faithful last
          have behind : (if Mode.idle.isIdle then trace.behind ++ trace.driving.toList
              else trace.behind) = trace.behind ++ [worker] := by
            rw [drives]
            rfl
          rw [behind]
          apply Resting.sound ?_ rfl
          refine ⟨faithful, ?_⟩
          intro settled left
          rcases settledBy_built left built with ⟨operation, made⟩
          exact ⟨worker, response, last, operation, made⟩
      · next unanswered =>
          rw [if_neg unanswered, List.append_nil] at added
          apply sound_left rfl
          rw [joined, added]
          exact before

theorem Trace.Sound.step (sound : trace.Sound) (info : EngineInfo) (tick : Tick) :
    ∃ next, trace.step info tick = .ok next ∧ Engine.step info trace.engine tick = .ok next.engine ∧
      next.Sound := by
  have advanced : ∀ next, Engine.step info trace.engine tick = .ok next →
      (trace.advance tick next).Sound → ∃ next, trace.step info tick = .ok next ∧
        Engine.step info trace.engine tick = .ok next.engine ∧ next.Sound := by
    intro next ran sound
    refine ⟨trace.advance tick next, ?_, ?_, sound⟩
    · rw [Trace.step, ran]
      rfl
    · rw [Trace.advance_engine, ran]
  cases mode : trace.engine.mode with
  | idle =>
      rcases Engine.Sound.serve sound mode info tick with ⟨next, ran, sound⟩
      refine advanced next ?_ ?_
      · rw [Engine.step, mode]
        exact ran
      · rw [Trace.advance_outside (by rw [mode]; rfl)]
        exact sound
  | delaying cmd =>
      rcases Engine.Sound.wait sound mode info tick with ⟨next, ran, sound⟩
      refine advanced next ?_ ?_
      · rw [Engine.step, mode]
        exact ran
      · rw [Trace.advance_outside (by rw [mode]; rfl)]
        exact sound
  | scanning task runner loop =>
      rcases scan_ok tick task runner loop trace.engine with ⟨next, ran⟩
      refine advanced next ?_ (sound.scan mode ran)
      rw [Engine.step, mode]
      exact ran
  | left =>
      have still : trace.engine.mode.isScanning = false := by rw [mode]; rfl
      refine advanced trace.engine ?_ ?_
      · rw [Engine.step, mode]
      · rw [Trace.advance_outside still]
        have faithful := Engine.Sound.faithful sound
        exact sound_left mode (written_outside still ▸ faithful)

/-! ### Runs -/

theorem run_sound (info : EngineInfo) (ticks : List Tick) :
    ∃ trace, Trace.run info ticks = .ok trace ∧ run info start ticks = .ok trace.engine ∧
      trace.Sound := by
  apply foldlM_ok ticks
    (fun seen (trace : Trace) => run info start seen = .ok trace.engine ∧ trace.Sound)
  · exact ⟨rfl, sound_start⟩
  · rintro seen tick rest trace _ ⟨ran, sound⟩
    rcases sound.step info tick with ⟨next, traced, stepped, sound⟩
    refine ⟨next, traced, ?_, sound⟩
    rw [run, List.foldlM_append, ← run, ran, Checked.ok_bind, List.foldlM_cons, stepped]
    rfl

/-- The session works: frames are whole, responses are written, and no command waits. -/
structure Tick.Working (tick : Tick) : Prop where
  readable : tick.command?.isSome = true ∨ tick.isQuiet = true
  replyWritten : tick.replyWritten = true
  progressWritten : tick.progressWritten = true
  responseWritten : tick.finale.responseWritten = true
  prompt : ∀ cmd, tick.command? = some cmd → effectiveDelay tick cmd = 0

theorem Tick.Working.orderly (working : tick.Working) : tick.duringScan.Orderly := by
  have readable := working.readable
  unfold Tick.command? Tick.isQuiet at readable
  refine ⟨working.progressWritten, working.replyWritten, ?_, ?_, ?_⟩
  · change ∃ readiness, tick.readiness = .ok readiness
    cases peeked : tick.readiness with
    | error err => simp [peeked] at readable
    | ok readiness => exact ⟨readiness, rfl⟩
  · intro partly
    change tick.readiness = .ok .incomplete at partly
    change tick.incompleteTooLong = false
    simpa [partly] using readable
  · intro whole
    change tick.readiness = .ok .complete at whole
    rw [whole] at readable
    cases received : tick.received with
    | error err => simp [received] at readable
    | ok arrived =>
        cases arrived with
        | none => simp [received] at readable
        | some cmd => exact ⟨cmd.duringScan, by simp [Tick.duringScan, received, Except.map]⟩

/-- While the session works and no command is delayed, only cancellations go unanswered, none
but the request of the scan in progress waits, and the engine leaves only when it is told to. -/
structure Attentive (engine : Engine) : Prop where
  accounted : Accounted IsCancel engine
  prompt : ∀ cmd, engine.mode ≠ .delaying cmd
  stays : engine.mode = .left → ∃ cmd ∈ engine.read, cmd.request = some .shutdown

theorem mode_send (written : tick.replyWritten = true) (reply : EngineReply) (engine : Engine) :
    (engine.send tick reply).mode = .idle := by
  rw [Engine.send, if_pos written]

theorem Dispatched.stays (dispatched : Dispatched info tick cmd engine next)
    (written : tick.replyWritten = true) (known : cmd ∈ engine.read) :
    (∀ cmd, next.mode ≠ .delaying cmd) ∧
      (next.mode = .left → ∃ cmd ∈ next.read, cmd.request = some .shutdown) := by
  cases dispatched with
  | plain reply answers plain => simp [mode_send written]
  | shutdown requested =>
      refine ⟨?_, fun _ => ⟨cmd, by simpa [Engine.leave], requested⟩⟩
      rintro waiting ⟨⟩
  | page page reply requested served => simp [mode_send written]
  | refused reply answers plain => simp [mode_send written]
  | begun request requested =>
      constructor
      · rintro waiting ⟨⟩
      · rintro ⟨⟩

theorem Attentive.step (attentive : Attentive engine) (working : tick.Working)
    (ran : Engine.step info engine tick = .ok next) : Attentive next := by
  have lost : ∀ cmd, Loses tick engine.mode cmd → IsCancel cmd := by
    intro cmd loses
    cases loses with
    | cancels cancel => exact cancel
    | unwritten broken =>
        rw [working.replyWritten] at broken
        cases broken
    | delayed waiting delays => exact absurd delays (attentive.prompt waiting)
    | unsettled broken =>
        rw [working.responseWritten] at broken
        cases broken
    | givenUp broken => exact absurd working.orderly broken
  have accounted := attentive.accounted.step lost ran
  unfold Engine.step at ran
  split at ran
  · next idle =>
      unfold Engine.serve at ran
      split at ran
      · next cmd read =>
          dsimp only at ran
          rw [working.prompt cmd read, if_neg (by decide)] at ran
          have stays := (Engine.dispatched ran).stays working.replyWritten (by simp)
          exact ⟨accounted, stays.1, stays.2⟩
      · next silent =>
          have quiet : tick.isQuiet = true := by
            rcases working.readable with whole | quiet
            · rw [silent] at whole
              cases whole
            · exact quiet
          rw [if_pos quiet] at ran
          cases ran
          exact attentive
  · next waiting delayed => exact absurd delayed (attentive.prompt waiting)
  · next task runner loop scanning =>
      unfold Engine.scan at ran
      rcases ScanLoop.pass_orderly working.orderly task loop with ⟨after, goes⟩
      rw [goes] at ran
      dsimp only at ran
      split at ran
      · rcases Checked.bind_eq_ok.mp ran with ⟨final, settled, assembled⟩
        cases assembled
        rw [working.responseWritten] at accounted ⊢
        refine ⟨accounted, ?_, ?_⟩
        · rintro waiting ⟨⟩
        · rintro ⟨⟩
      · cases ran
        refine ⟨accounted, ?_, ?_⟩
        · rintro waiting ⟨⟩
        · rintro ⟨⟩
  · next left =>
      cases ran
      exact attentive

theorem run_attentive {ticks : List Tick} {final : Engine}
    (working : ∀ tick ∈ ticks, tick.Working) (ran : run info start ticks = .ok final) :
    Attentive final := by
  have idle : Attentive start := ⟨accounted_start, by rintro cmd ⟨⟩, by rintro ⟨⟩⟩
  apply foldlM_invariant ticks (fun _ engine => Attentive engine) idle ?_ ran
  intro seen tick rest engine next split attentive stepped
  exact attentive.step (working tick (by simp [split])) stepped

/-- Over every run, each reply answers a command of its own, and no name is used in more
replies than commands if the cancellations are named. -/
theorem run_answers (info : EngineInfo) (ticks : List Tick) :
    ∃ final, run info start ticks = .ok final ∧ Accounted (fun _ => True) final ∧
      ((∀ cmd ∈ final.read, IsCancel cmd → cmd.requestId ≠ "") →
        ((replies final.written).map EngineReply.requestId).Subperm
          (final.read.map EngineCommand.requestId)) ∧
        ((∀ tick ∈ ticks, tick.Working) → Attentive final) := by
  rcases run_sound info ticks with ⟨trace, -, ran, -⟩
  generalize trace.engine = final at ran
  have accounted : Accounted (fun _ => True) final := by
    apply foldlM_invariant ticks (fun _ engine => Accounted (fun _ => True) engine)
      accounted_start ?_ ran
    intro seen tick rest engine next _ accounted stepped
    exact accounted.step (fun _ _ => trivial) stepped
  refine ⟨final, ran, accounted, ?_, ?_⟩
  · intro named
    rcases accounted with ⟨waiting, -, ledger⟩
    apply ledger.keys_subperm
    intro cmd mem reply answers
    rcases answers.named with same | ⟨unnamed, cancel, requested, -⟩
    · exact same
    · exact absurd unnamed (named cmd mem ⟨cancel, requested⟩)
  · intro working
    exact run_attentive working ran

/-- In every run one worker is behind each scan response, the worker of the pass in which
its scan began, and each page of children shows the records of the worker behind the scan
response that was written last before it, under the operation that response names. -/
theorem run_pages (info : EngineInfo) (ticks : List Tick) :
    ∃ trace, Trace.run info ticks = .ok trace ∧ run info start ticks = .ok trace.engine ∧
      Faithful trace.behind (replies trace.engine.written) := by
  rcases run_sound info ticks with ⟨trace, traced, ran, sound⟩
  exact ⟨trace, traced, ran, Engine.Sound.faithful sound⟩

end Engine

end PigTree
