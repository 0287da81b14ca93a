import Homelab.Api.History

namespace Homelab.Api

open Json (Object)
open Interaction (Execution Moment Program)

/-! # Scripted executions

An execution that is written down: who acts next, and how the API and the host
answer.
-/

/-- How one request is answered: by the API and this host, with a failure that
has no effect, or with a failure that hides the effect. -/
inductive Turn where
  | answer (host : (call : Host) → call.Value)
  | refuse (failure : Exn)
  | lose (failure : Exn)

/-- The answer to a request, and the store afterwards. -/
def respond (store : Store) : (request : Request) → Turn → interface.Reply request × Store
  | _, .refuse failure => (.error failure, store)
  | .get kind name, _ =>
      match store.find? Resource.schema (kind, name) with
      | some resource => (.ok resource, store)
      | none => (.error (.http 404), store)
  | .list kind, _ => (.ok (store.objects.filter fun resource => resource.kind = kind), store)
  | .patchStatus resource status, .answer _ =>
      match patch store resource status with
      | some (updated, after) => (.ok updated, after)
      | none => (.error (.http 409), store)
  | .patchStatus resource status, .lose failure =>
      match patch store resource status with
      | some (_, after) =>
          if failure = .http 409 then (.error failure, store) else (.error failure, after)
      | none => (.error (.http 409), store)
  | .create _ _ _, _ => (.error (.http 409), store)
  | .host call, .answer host => (.ok (host call), store)
  | .host _, .lose failure => (.error failure, store)

theorem respond_serve (store : Store) (request : Request) (turn : Turn) :
    Serve store request (respond store request turn).1 (respond store request turn).2 := by
  cases turn with
  | refuse failure => cases request <;> exact .failed
  | answer host =>
      cases request with
      | get kind name =>
          simp only [respond]
          split
          · exact .found ‹_›
          · exact .failed
      | list kind => exact .listed
      | patchStatus resource status =>
          simp only [respond]
          split
          · exact .applied ‹_›
          · exact .failed
      | create kind name spec => exact .failed
      | host call => exact .performed
  | lose failure =>
      cases request with
      | get kind name =>
          simp only [respond]
          split
          · exact .found ‹_›
          · exact .failed
      | list kind => exact .listed
      | patchStatus resource status =>
          simp only [respond]
          split
          · split
            · exact .failed
            · exact .lost ‹_› ‹_›
          · exact .failed
      | create kind name spec => exact .failed
      | host call => exact .failed

/-- A system that is being played. -/
structure Play (α : Type) where
  world : Store
  history : List (Moment interface Store)
  running : List (Program interface α)

variable {α : Type}

namespace Play

def begin (store : Store) (running : List (Program interface α)) : Play α where
  world := store
  history := running.map fun _ => ⟨.start, store⟩
  running := running

/-- One program performs its pending request. -/
def turn (play : Play α) (actor : Nat) (answer : Turn) : Option (Play α) :=
  match play.running[actor]? with
  | some (.call request resume) =>
      let (reply, after) := respond play.world request answer
      some {
        world := after
        history := play.history ++ [⟨.act actor ⟨request, reply⟩, after⟩]
        running := play.running.set actor (resume reply) }
  | _ => none

/-- The programs take turns as written. -/
def turns : List (Nat × Turn) → Play α → Option (Play α)
  | [], play => some play
  | (actor, answer) :: rest, play => (play.turn actor answer).bind (turns rest)

variable {starts : Program interface α → Prop} {outside : Store → Store → Prop} {initial : Store}

/-- What is played is an execution. -/
def Plays (starts : Program interface α → Prop) (outside : Store → Store → Prop) (initial : Store)
    (play : Play α) : Prop :=
  Execution (surroundings outside) starts initial play.history play.world play.running

theorem plays_begin {running : List (Program interface α)} (allowed : ∀ program ∈ running, starts program) :
    (begin initial running).Plays starts outside initial := by
  induction running using List.reverseRecOn with
  | nil => exact .init
  | append_singleton earlier program ih =>
      have past := ih fun program member => allowed program (List.mem_append_left _ member)
      have next := Execution.start past (allowed program (by simp))
      simpa [begin, Plays] using next

theorem Plays.turn {play next : Play α} {actor : Nat} {answer : Turn}
    (plays : play.Plays starts outside initial) (found : play.turn actor answer = some next) :
    next.Plays starts outside initial := by
  unfold Play.turn at found
  split at found
  · rename_i request resume pending
    obtain rfl := Option.some.inj found
    exact .act plays pending (respond_serve play.world request answer)
  · simp at found

theorem Plays.turns {script : List (Nat × Turn)} {play final : Play α}
    (plays : play.Plays starts outside initial) (found : Play.turns script play = some final) :
    final.Plays starts outside initial := by
  induction script generalizing play with
  | nil => exact Option.some.inj found ▸ plays
  | cons entry rest ih =>
      obtain ⟨middle, first, remaining⟩ := Option.bind_eq_some_iff.mp found
      exact ih (plays.turn first) remaining

end Play

end Homelab.Api
