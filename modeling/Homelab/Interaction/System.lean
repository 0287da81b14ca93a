import Mathlib.Data.List.Induction
import Homelab.Interaction.Contract

namespace Interaction

/-! # Interleaved executions

A system is a shared world and any number of running programs.  A moment of an
execution is one request of one program answered by the world, a change by
someone outside the system, or the start of another program.  A program that
is killed is one that is never scheduled again, so every prefix of every run is
an execution.
-/

/-- What a world does: `serve world request reply after` when it may answer
`request` with `reply` and turn into `after`, and `outside` for changes that no
program of the system asked for. -/
structure Environment (I : Interface) (World : Type) where
  serve : World → (request : I.Request) → I.Reply request → World → Prop
  outside : World → World → Prop

inductive Happening (I : Interface) where
  | act (actor : Nat) (event : Event I)
  | outside
  | start

/-- One moment of an execution, with the world it leaves. -/
structure Moment (I : Interface) (World : Type) where
  happening : Happening I
  after : World

variable {I : Interface} {World α : Type}

def Moment.event? (actor : Nat) (moment : Moment I World) : Option (Event I) :=
  match moment.happening with
  | .act who event => if who = actor then some event else none
  | .outside => none
  | .start => none

/-- The events of one program in a history, oldest first. -/
def localTrace (actor : Nat) (history : List (Moment I World)) : Trace I :=
  history.filterMap (Moment.event? actor)

@[simp] theorem localTrace_nil (actor : Nat) :
    localTrace actor ([] : List (Moment I World)) = [] := rfl

@[simp] theorem localTrace_append (actor : Nat) (first second : List (Moment I World)) :
    localTrace actor (first ++ second) = localTrace actor first ++ localTrace actor second := by
  simp [localTrace]

@[simp] theorem localTrace_act_self (actor : Nat) (event : Event I) (after : World) :
    localTrace actor [⟨.act actor event, after⟩] = [event] := by
  simp [localTrace, Moment.event?]

theorem localTrace_act_other {actor who : Nat} (different : who ≠ actor) (event : Event I)
    (after : World) : localTrace actor [⟨.act who event, after⟩] = [] := by
  simp [localTrace, Moment.event?, different]

@[simp] theorem localTrace_outside (actor : Nat) (after : World) :
    localTrace actor [(⟨.outside, after⟩ : Moment I World)] = [] := rfl

@[simp] theorem localTrace_start (actor : Nat) (after : World) :
    localTrace actor [(⟨.start, after⟩ : Moment I World)] = [] := rfl

theorem mem_localTrace {actor : Nat} {event : Event I} {history : List (Moment I World)} :
    event ∈ localTrace actor history ↔ ∃ after, ⟨.act actor event, after⟩ ∈ history := by
  simp only [localTrace, List.mem_filterMap]
  constructor
  · rintro ⟨⟨happening, after⟩, member, found⟩
    cases happening with
    | act who performed =>
        by_cases same : who = actor
        · simp only [Moment.event?, same, if_true, Option.some.injEq] at found
          subst same found
          exact ⟨after, member⟩
        · simp [Moment.event?, same] at found
    | outside => simp [Moment.event?] at found
    | start => simp [Moment.event?] at found
  · rintro ⟨after, member⟩
    exact ⟨_, member, by simp [Moment.event?]⟩

/-- The last moment is an event of the program, or leaves its trace as it was. -/
theorem localTrace_last (actor : Nat) (history : List (Moment I World)) (moment : Moment I World) :
    (∃ event, moment.happening = .act actor event ∧
        localTrace actor (history ++ [moment]) = localTrace actor history ++ [event]) ∨
      (∀ event, moment.happening ≠ .act actor event) ∧
        localTrace actor (history ++ [moment]) = localTrace actor history := by
  obtain ⟨happening, after⟩ := moment
  cases happening with
  | act who event =>
      by_cases same : who = actor
      · subst same
        exact .inl ⟨event, rfl, by simp⟩
      · right
        constructor
        · intro other acted
          cases acted
          exact same rfl
        · rw [localTrace_append, localTrace_act_other same, List.append_nil]
  | outside => exact .inr ⟨fun _ acted => (by cases acted), by simp⟩
  | start => exact .inr ⟨fun _ acted => (by cases acted), by simp⟩

/-- A point in the trace of a program is a moment of the history. -/
theorem localTrace_eq_append {actor : Nat} {history : List (Moment I World)} {earlier later : Trace I}
    {event : Event I} (split : localTrace actor history = earlier ++ event :: later) :
    ∃ past after rest, history = past ++ ⟨.act actor event, after⟩ :: rest ∧
      localTrace actor past = earlier ∧ localTrace actor rest = later := by
  obtain ⟨past, rest, rfl, first, second⟩ := List.filterMap_eq_append_iff.mp split
  obtain ⟨skipped, moment, remaining, rfl, silent, found, last⟩ := List.filterMap_eq_cons_iff.mp second
  obtain ⟨happening, after⟩ := moment
  cases happening with
  | outside => simp [Moment.event?] at found
  | start => simp [Moment.event?] at found
  | act who performed =>
      by_cases same : who = actor
      · subst same
        obtain rfl : performed = event := by simpa [Moment.event?] using found
        refine ⟨past ++ skipped, after, remaining, by simp, ?_, last⟩
        have quiet : localTrace who skipped = [] := List.filterMap_eq_nil_iff.mpr silent
        rw [localTrace_append, quiet, List.append_nil]
        exact first
      · simp [Moment.event?, same] at found

/-- The world that a history leaves. -/
def worldAfter (initial : World) (history : List (Moment I World)) : World :=
  (history.getLast?.map Moment.after).getD initial

@[simp] theorem worldAfter_nil (initial : World) :
    worldAfter initial ([] : List (Moment I World)) = initial := rfl

@[simp] theorem worldAfter_append (initial : World) (history : List (Moment I World))
    (moment : Moment I World) : worldAfter initial (history ++ [moment]) = moment.after := by
  simp [worldAfter]

theorem worldAfter_append_append (initial : World) (first second : List (Moment I World)) :
    worldAfter initial (first ++ second) = worldAfter (worldAfter initial first) second := by
  cases second using List.reverseRecOn with
  | nil => simp
  | append_singleton middle moment => rw [← List.append_assoc, worldAfter_append, worldAfter_append]

/-- `Execution environment starts initial history world running`: from `initial`,
`history` leads to `world`, with `running` the programs still to be run. -/
inductive Execution (environment : Environment I World) (starts : Program I α → Prop)
    (initial : World) : List (Moment I World) → World → List (Program I α) → Prop
  | init : Execution environment starts initial [] initial []
  | act {history : List (Moment I World)} {world after : World} {running : List (Program I α)}
      {actor : Nat} {request : I.Request} {resume : I.Reply request → Program I α}
      {reply : I.Reply request}
      (past : Execution environment starts initial history world running)
      (pending : running[actor]? = some (.call request resume))
      (served : environment.serve world request reply after) :
      Execution environment starts initial
        (history ++ [⟨.act actor ⟨request, reply⟩, after⟩]) after
        (running.set actor (resume reply))
  | outside {history : List (Moment I World)} {world after : World} {running : List (Program I α)}
      (past : Execution environment starts initial history world running)
      (changed : environment.outside world after) :
      Execution environment starts initial (history ++ [⟨.outside, after⟩]) after running
  | start {history : List (Moment I World)} {world : World} {running : List (Program I α)}
      {program : Program I α}
      (past : Execution environment starts initial history world running)
      (allowed : starts program) :
      Execution environment starts initial (history ++ [⟨.start, world⟩]) world
        (running ++ [program])

variable {environment : Environment I World} {starts : Program I α → Prop} {initial world : World}
  {history : List (Moment I World)} {running : List (Program I α)} {contract : Contract I}

namespace Execution

/-- The ways the last moment of an execution can have come about. -/
theorem last_cases {moment : Moment I World}
    (execution : Execution environment starts initial (history ++ [moment]) world running) :
    ∃ before programs, Execution environment starts initial history before programs ∧
      moment.after = world ∧
      ((∃ actor request resume reply, moment.happening = .act actor ⟨request, reply⟩ ∧
          programs[actor]? = some (.call request resume) ∧
          environment.serve before request reply world ∧
          running = programs.set actor (resume reply)) ∨
        (moment.happening = .outside ∧ environment.outside before world ∧ running = programs) ∨
        (moment.happening = .start ∧ world = before ∧
          ∃ program, starts program ∧ running = programs ++ [program])) := by
  generalize whole : history ++ [moment] = events at execution
  cases execution with
  | init => simp at whole
  | act past pending served =>
      obtain ⟨rfl, rfl⟩ := List.append_inj' whole rfl |>.imp id (List.cons.inj · |>.1)
      exact ⟨_, _, past, rfl, .inl ⟨_, _, _, _, rfl, pending, served, rfl⟩⟩
  | outside past changed =>
      obtain ⟨rfl, rfl⟩ := List.append_inj' whole rfl |>.imp id (List.cons.inj · |>.1)
      exact ⟨_, _, past, rfl, .inr (.inl ⟨rfl, changed, rfl⟩)⟩
  | start past allowed =>
      obtain ⟨rfl, rfl⟩ := List.append_inj' whole rfl |>.imp id (List.cons.inj · |>.1)
      exact ⟨_, _, past, rfl, .inr (.inr ⟨rfl, rfl, _, allowed, rfl⟩)⟩

/-- A request that was answered was pending, and the world answered it. -/
theorem act_cases {actor : Nat} {event : Event I} {after : World}
    (execution : Execution environment starts initial (history ++ [⟨.act actor event, after⟩])
      world running) :
    ∃ before programs resume, Execution environment starts initial history before programs ∧
      programs[actor]? = some (.call event.request resume) ∧
      environment.serve before event.request event.reply world ∧ after = world ∧
      running = programs.set actor (resume event.reply) := by
  obtain ⟨before, programs, past, left, step⟩ := execution.last_cases
  rcases step with ⟨who, request, resume, reply, acted, pending, served, rest⟩ | ⟨other, _⟩ | ⟨other, _⟩
  · cases acted
    exact ⟨before, programs, resume, past, pending, served, left, rest⟩
  · cases other
  · cases other

theorem nil_world (execution : Execution environment starts initial [] world running) :
    world = initial := by
  generalize empty : ([] : List (Moment I World)) = events at execution
  cases execution <;> simp at empty ⊢

theorem world_eq (execution : Execution environment starts initial history world running) :
    world = worldAfter initial history := by
  cases history using List.reverseRecOn with
  | nil => exact execution.nil_world
  | append_singleton earlier moment =>
      obtain ⟨_, _, _, after, _⟩ := execution.last_cases
      rw [worldAfter_append, after]

theorem world_unique {other : World} {programs : List (Program I α)}
    (execution : Execution environment starts initial history world running)
    (same : Execution environment starts initial history other programs) : world = other :=
  execution.world_eq.trans same.world_eq.symm

/-- Every prefix of an execution is one. -/
theorem before {later : List (Moment I World)}
    (execution : Execution environment starts initial (history ++ later) world running) :
    ∃ programs, Execution environment starts initial history (worldAfter initial history) programs := by
  induction later using List.reverseRecOn generalizing world running with
  | nil =>
      rw [List.append_nil] at execution
      exact ⟨_, execution.world_eq ▸ execution⟩
  | append_singleton earlier moment ih =>
      rw [← List.append_assoc] at execution
      obtain ⟨_, _, past, _⟩ := execution.last_cases
      exact ih past

theorem actor_bound (execution : Execution environment starts initial history world running)
    {actor : Nat} (absent : running.length ≤ actor) : localTrace actor history = [] := by
  induction execution with
  | init => rfl
  | @act history world after running who request resume reply past pending served ih =>
      have bound : who < running.length := (List.getElem?_eq_some_iff.mp pending).1
      rw [List.length_set] at absent
      have different : who ≠ actor := by omega
      simp [ih absent, localTrace_act_other different]
  | outside past changed ih => simp [ih absent]
  | start past allowed ih =>
      rw [List.length_append] at absent
      simp [ih (by omega)]

/-- What is left of a program is what its own trace leaves of a program that
was started. -/
theorem local_steps (execution : Execution environment starts initial history world running)
    {actor : Nat} {rest : Program I α} (found : running[actor]? = some rest) :
    ∃ program, starts program ∧ program.Steps (localTrace actor history) rest := by
  induction execution generalizing rest with
  | init => simp at found
  | @act history world after running who request resume reply past pending served ih =>
      by_cases same : who = actor
      · subst same
        have bound : who < running.length := (List.getElem?_eq_some_iff.mp pending).1
        obtain rfl : resume reply = rest := by simpa [bound] using found
        obtain ⟨program, allowed, steps⟩ := ih pending
        refine ⟨program, allowed, ?_⟩
        simpa using steps.trans (.call (.refl (resume reply)))
      · rw [List.getElem?_set_ne same] at found
        obtain ⟨program, allowed, steps⟩ := ih found
        exact ⟨program, allowed, by simpa [localTrace_act_other same] using steps⟩
  | outside past changed ih => simpa using ih found
  | @start history world running program past allowed ih =>
      by_cases before : actor < running.length
      · rw [List.getElem?_append_left before] at found
        simpa using ih found
      · have silent := past.actor_bound (Nat.le_of_not_lt before)
        have last : actor = running.length := by
          have bound := (List.getElem?_eq_some_iff.mp found).1
          simp only [List.length_append, List.length_singleton] at bound
          omega
        subst last
        obtain rfl : program = rest := by simpa using found
        exact ⟨program, allowed, by simpa [silent] using Program.Steps.refl program⟩

theorem replies (execution : Execution environment starts initial history world running)
    (honest : ∀ before request reply after,
      environment.serve before request reply after → contract.rely request reply)
    (actor : Nat) : ∀ event ∈ localTrace actor history, contract.rely event.request event.reply := by
  induction execution with
  | init => simp
  | @act history world after running who request resume reply past pending served ih =>
      intro event member
      by_cases same : who = actor
      · subst same
        simp only [localTrace_append, localTrace_act_self, List.mem_append, List.mem_singleton] at member
        rcases member with member | rfl
        · exact ih event member
        · exact honest _ _ _ _ served
      · exact ih event (by simpa [localTrace_act_other same] using member)
  | outside past changed ih => simpa using ih
  | start past allowed ih => simpa using ih

variable {post : Trace I → α → Prop}

/-- Every request a program is about to issue satisfies the guard of its contract. -/
theorem guarded (execution : Execution environment starts initial history world running)
    (honest : ∀ before request reply after,
      environment.serve before request reply after → contract.rely request reply)
    (meets : ∀ program, starts program → program.Meets contract [] post)
    {actor : Nat} {request : I.Request} {resume : I.Reply request → Program I α}
    (pending : running[actor]? = some (.call request resume)) :
    contract.guard (localTrace actor history) request := by
  obtain ⟨program, allowed, steps⟩ := execution.local_steps pending
  simpa using (meets program allowed).pending steps (execution.replies honest actor)

/-- What a program owes when it ends holds of its own trace. -/
theorem finished (execution : Execution environment starts initial history world running)
    (honest : ∀ before request reply after,
      environment.serve before request reply after → contract.rely request reply)
    (meets : ∀ program, starts program → program.Meets contract [] post)
    {actor : Nat} {result : α} (found : running[actor]? = some (.done result)) :
    post (localTrace actor history) result := by
  obtain ⟨program, allowed, steps⟩ := execution.local_steps found
  simpa [Program.Meets] using (meets program allowed).steps steps (execution.replies honest actor)

theorem weaken {wider : Environment I World}
    (execution : Execution environment starts initial history world running)
    (serve : ∀ before request reply after,
      environment.serve before request reply after → wider.serve before request reply after)
    (outside : ∀ before after, environment.outside before after → wider.outside before after) :
    Execution wider starts initial history world running := by
  induction execution with
  | init => exact .init
  | act past pending served ih => exact .act ih pending (serve _ _ _ _ served)
  | outside past changed ih => exact .outside ih (outside _ _ changed)
  | start past allowed ih => exact .start ih allowed

theorem restart {others : Program I α → Prop} (execution : Execution environment starts initial history world running)
    (included : ∀ program, starts program → others program) :
    Execution environment others initial history world running := by
  induction execution with
  | init => exact .init
  | act past pending served ih => exact .act ih pending served
  | outside past changed ih => exact .outside ih changed
  | start past allowed ih => exact .start ih (included _ allowed)

end Execution

end Interaction
