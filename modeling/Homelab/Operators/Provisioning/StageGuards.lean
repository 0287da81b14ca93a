import Homelab.Operators.Provisioning.CarefulPass
import Homelab.Operators.Provisioning.Rehearsal

namespace Homelab.Provisioning

open Json (Object)
open Api (Play Turn)
open Interaction (Program Execution Moment Happening localTrace)

/-! # Stages and the revalidation before them -/

variable {outside : Store → Store → Prop} {initial world : Store}
  {history : List (Moment interface Store)} {running : List (Program interface (Except Exn Nat))}

/-- Whatever a pass is about to request is requested with care. -/
theorem Passes.careful (execution : Passes outside initial history world running) {actor : Nat}
    {request : Request} {resume : interface.Reply request → Program interface (Except Exn Nat)}
    (pending : running[actor]? = some (.call request resume)) :
    Careful (localTrace actor history) request := by
  have meets : ∀ program, IsPass program → program.Meets care [] fun _ _ => True := by
    intro program ⟨env, preflight, same⟩
    subst same
    exact Program.Meets.mono (main_careful env preflight) fun _ _ _ _ => True.intro
  exact Execution.guarded execution (fun _ _ _ _ served => Api.Serve.honest served) meets pending

/-- The pass starts a stage for a run. -/
def StartsStage (actor : Nat) (stage uid : String) (moment : Moment interface Store) : Prop :=
  ∃ argv files reply, moment.happening = .act actor ⟨.host (.spawn argv files), reply⟩ ∧
    stageOf files = some (stage, uid)

theorem Passes.careful_stage {past later : List (Moment interface Store)} {moment : Moment interface Store}
    {actor : Nat} {stage uid : String}
    (execution : Passes outside initial (past ++ moment :: later) world running)
    (starts : StartsStage actor stage uid moment) :
    (IsPhysical (localTrace actor past) stage →
      (stage = "refresh-prepare" → LastReady (localTrace actor past)) → Guarded (localTrace actor past) uid) ∧
      (stage = "install" → Deliverable (localTrace actor past) uid) := by
  obtain ⟨argv, files, reply, shape, found⟩ := starts
  obtain ⟨happening, after⟩ := moment
  dsimp only at shape
  subst shape
  rw [List.append_cons] at execution
  obtain ⟨_, upTo⟩ := Execution.before execution
  obtain ⟨_, _, _, first, pending, _⟩ := upTo.act_cases
  exact Passes.careful first pending stage uid found

/-- Whenever the handover from a live session goes on after its first stage, the
Server as the pass has read it last is enabled, not paused and reports its boot
interface. -/
def RefreshReady (history : List (Moment interface Store)) : Prop :=
  ∀ past moment later actor uid, history = past ++ moment :: later →
    StartsStage actor "refresh-prepare" uid moment → LastReady (localTrace actor past)

/-- Whether a moment starts the second stage of the handover from a live session. -/
def refreshes (moment : Moment interface Store) : Bool :=
  match moment.happening with
  | .act _ ⟨.host (.spawn _ files), _⟩ => (stageOf files).any fun entry => entry.1 == "refresh-prepare"
  | _ => false

theorem refreshReady_of_installed (installed : ∀ moment ∈ history, refreshes moment = false) :
    RefreshReady history := by
  intro past moment later actor uid split starts
  obtain ⟨argv, files, reply, shape, found⟩ := starts
  have none_ := installed moment (by simp [split])
  simp [refreshes, shape, found] at none_

/-- The Servers that the pass has read since the last process. -/
def readSinceProcess (trace : Trace) : List Resource :=
  (trace.reverse.takeWhile fun event => !handlesProcess event.request).filterMap serverOf

theorem Guarded.read {trace : Trace} {uid : String} (guarded : Guarded trace uid) :
    ∃ server ∈ readSinceProcess trace, Enabled server := by
  obtain ⟨view, latest, earlier, name, rest, shape, idle, _, _, _, _, enabled, _⟩ := guarded
  refine ⟨latest.server, ?_, enabled⟩
  have silent : ∀ event ∈ rest.reverse ++ [⟨.get .provisioningRun name, .ok latest.run⟩],
      (!handlesProcess event.request) = true := by
    intro event member
    cases List.mem_append.mp member with
    | inl member => simp [idle event (List.mem_reverse.mp member)]
    | inr member =>
        rw [List.mem_singleton.mp member]
        rfl
  have order : trace.reverse = (rest.reverse ++ [⟨.get .provisioningRun name, .ok latest.run⟩]) ++
      ⟨.get .server view.server.name, .ok latest.server⟩ :: earlier.reverse := by
    simp [shape]
  rw [readSinceProcess, order, List.takeWhile_append_of_pos silent, List.mem_filterMap]
  exact ⟨⟨.get .server view.server.name, .ok latest.server⟩, List.mem_append_right _ List.mem_cons_self, rfl⟩

instance (server : Resource) : Decidable (Enabled server) := inferInstanceAs (Decidable (_ ∧ _))

/-- Somebody pauses the Server. -/
def pause (store : Store) : Store :=
  match store.find? Resource.schema (.server, "first") with
  | some server => store.put Resource.schema { server with
      metadata := { server.metadata with
        resourceVersion := store.revision + 1, generation := server.metadata.generation.map (· + 1) }
      spec := server.spec.set "reconciliation" (.obj [("paused", .bool true)]) }
  | none => store

/-- Others do nothing but pause the Server. -/
def pausing (before after : Store) : Prop := after = pause before

/-- What an inspection finds on a live image that a pass starts from. -/
def liveSource : Json :=
  .obj [("uefi", .bool true), ("secureBoot", .bool false), ("live", .bool true),
    ("rootOnTarget", .bool false), ("disk", Rehearsal.disk), ("targetDisk", .str "/dev/sda"),
    ("bootID", .str "source")]

def refreshing (count : Nat) : List (Nat × Turn) :=
  Rehearsal.steps count 0 (.answer (Rehearsal.host "first" liveSource))

def interrupted (play : Play (Except Exn Nat)) : Play (Except Exn Nat) where
  world := pause play.world
  history := play.history ++ [⟨.outside, pause play.world⟩]
  running := play.running

/-- Up to the end of the first stage; then the Server is paused; then up to the
request to start the second stage. -/
def pausedHandover : Option (Play (Except Exn Nat)) :=
  (Play.turns (refreshing 32)
    (Play.begin Rehearsal.deployment [main (Rehearsal.executor "group") false])).bind fun play =>
      Play.turns (refreshing 6) (interrupted play)

theorem pausedHandover_passes {play : Play (Except Exn Nat)} (found : pausedHandover = some play) :
    Passes pausing Rehearsal.deployment play.history play.world play.running := by
  obtain ⟨first, begun, continued⟩ := Option.bind_eq_some_iff.mp found
  have start : first.Plays IsPass pausing Rehearsal.deployment := by
    refine Play.Plays.turns (Play.plays_begin fun program member => ?_) begun
    rw [List.mem_singleton.mp member]
    exact ⟨_, _, rfl⟩
  have middle : (interrupted first).Plays IsPass pausing Rehearsal.deployment :=
    Execution.outside start rfl
  exact middle.turns continued

/-- Whether a pass is about to start this stage. -/
def isStarting (play : Play (Except Exn Nat)) (actor : Nat) (stage uid : String) : Bool :=
  match play.running[actor]? with
  | some (.call (.host (.spawn _ files)) _) => stageOf files == some (stage, uid)
  | _ => false

theorem startsStage_of_isStarting {play next : Play (Except Exn Nat)} {actor : Nat} {answer : Turn}
    {stage uid : String} (starting : isStarting play actor stage uid = true)
    (turn : play.turn actor answer = some next) :
    ∃ moment, next.history = play.history ++ [moment] ∧ StartsStage actor stage uid moment := by
  unfold isStarting at starting
  split at starting
  · rename_i argv files resume pending
    simp only [Play.turn, pending, Option.some.injEq] at turn
    subst turn
    exact ⟨_, rfl, argv, files, _, rfl, by simpa using starting⟩
  · simp at starting

end Homelab.Provisioning
