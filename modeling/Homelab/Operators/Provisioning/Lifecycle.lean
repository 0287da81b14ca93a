import Mathlib.Logic.Relation
import Homelab.Operators.Provisioning.Pass

namespace Homelab.Provisioning

open Json (Object)

/-! # The life of a run

What a ProvisioningRun is for, without the code: a record that moves from phase
to phase, is claimed once, and says whether a boot selection is armed and
whether its Server is kept under maintenance.
-/

structure Record where
  phase : Option Phase
  maintenance : Option Json
  armed : Bool
  attemptID : Option Json
  snapshot : Option Json
  sourceBootID : Option Json

/-- The writes a pass may make to its run. -/
inductive Move where
  | note
  | claim
  | arm
  | await
  | pin
  | enroll
  | install
  | finish
  | verify
  | succeed
  | interrupt
  | remark
  | block (keep : Bool)
deriving DecidableEq

namespace Record

def active (record : Record) : Prop := ∃ phase ∈ ACTIVE, record.phase = some phase

def claimed (record : Record) : Bool := record.attemptID.any Json.truthy

/-- Phases and identity let a pass claim the run. -/
def claimable (record : Record) : Prop :=
  record.phase ≠ some .succeeded ∧ record.phase ≠ some .blocked ∧ record.phase ≠ some .installing ∧
    (record.claimed = false ∨ ¬ record.active)

inductive Step : Move → Record → Record → Prop
  | note {record : Record} (found : record.phase = some .pending) : Step .note record record
  | claim {record : Record} {id : String} {snapshot sourceBootID : Option Json}
      (found : record.claimable) (named : id ≠ "") :
      Step .claim record
        { phase := some .preparingBoot, maintenance := some (.bool true), armed := false,
          attemptID := some (.str id), snapshot, sourceBootID }
  | arm {record : Record} (found : record.phase = some .preparingBoot) :
      Step .arm record { record with armed := true }
  | await {record : Record} (found : record.phase = some .preparingBoot) :
      Step .await record { record with phase := some .awaitingLive, armed := true }
  | pin {record : Record} (found : record.phase = some .awaitingLive) : Step .pin record record
  | enroll {record : Record} (found : record.phase = some .awaitingLive) :
      Step .enroll record { record with armed := false }
  | install {record : Record} (found : record.phase = some .awaitingLive) :
      Step .install record { record with phase := some .installing }
  | finish {record : Record} (found : record.phase = some .installing) :
      Step .finish record { record with phase := some .awaitingInstalled, armed := false }
  | verify {record : Record} (found : record.phase = some .awaitingInstalled) :
      Step .verify record { record with phase := some .verifying }
  | succeed {record : Record} (found : record.phase = some .verifying) :
      Step .succeed record { record with phase := some .succeeded, maintenance := some (.bool false) }
  | interrupt {record : Record} (found : record.phase = some .installing) :
      Step .interrupt record { record with phase := some .blocked, maintenance := some (.bool true) }
  | remark {record : Record} (found : record.active) : Step .remark record record
  | block {record : Record} {keep armed : Bool}
      (found : record.phase = some .preparingBoot ∨ record.phase = some .awaitingLive ∨
        record.phase = some .installing)
      (entered : record.phase = some .installing → keep = true) :
      Step (.block keep) record
        { record with phase := some .blocked, maintenance := some (.bool keep), armed }

/-- No pass has claimed the run yet. -/
def fresh (record : Record) : Prop := record.phase = none ∨ record.phase = some .pending

/-- A record that began unclaimed: an attempt under way has an identity and
holds its Server. -/
structure Sound (record : Record) : Prop where
  claimed : record.active → record.claimed = true
  maintenance : record.active → record.maintenance = some (.bool true)

theorem Sound.fresh {record : Record} (fresh : record.fresh) : record.Sound := by
  have idle : ¬ record.active := by
    rintro ⟨phase, member, same⟩
    rcases fresh with found | found
    · simp [same] at found
    · rw [found] at same
      cases same
      simp [ACTIVE] at member
  exact ⟨fun active => absurd active idle, fun active => absurd active idle⟩

theorem active_of_phase {record : Record} {phase : Phase} (found : record.phase = some phase)
    (member : phase ∈ ACTIVE) : record.active := ⟨phase, member, found⟩

theorem not_active_of_phase {record : Record} {phase : Phase} (found : record.phase = some phase)
    (absent : phase ∉ ACTIVE) : ¬ record.active := by
  rintro ⟨other, member, same⟩
  rw [found] at same
  cases same
  exact absent member

theorem fresh_of_claimable {record : Record} (sound : record.Sound) (open_ : record.claimable) :
    record.fresh := by
  obtain ⟨notSucceeded, notBlocked, _, free⟩ := open_
  have idle : ¬ record.active := by
    rcases free with unclaimed | idle
    · intro active
      simp [sound.claimed active] at unclaimed
    · exact idle
  cases found : record.phase with
  | none => exact .inl found
  | some phase =>
      cases phase with
      | pending => exact .inr found
      | succeeded => exact absurd found notSucceeded
      | blocked => exact absurd found notBlocked
      | _ => exact absurd (active_of_phase found (by simp [ACTIVE])) idle

theorem Step.sound {move : Move} {before after : Record} (step : Step move before after)
    (sound : before.Sound) : after.Sound := by
  cases step with
  | note _ => exact sound
  | claim _ named => exact ⟨fun _ => by simpa [claimed, Json.truthy] using named, fun _ => rfl⟩
  | arm found =>
      have active := active_of_phase found (by simp [ACTIVE])
      exact ⟨fun _ => sound.claimed active, fun _ => sound.maintenance active⟩
  | await found =>
      have active := active_of_phase found (by simp [ACTIVE])
      exact ⟨fun _ => sound.claimed active, fun _ => sound.maintenance active⟩
  | pin _ => exact sound
  | enroll found =>
      have active := active_of_phase found (by simp [ACTIVE])
      exact ⟨fun _ => sound.claimed active, fun _ => sound.maintenance active⟩
  | install found =>
      have active := active_of_phase found (by simp [ACTIVE])
      exact ⟨fun _ => sound.claimed active, fun _ => sound.maintenance active⟩
  | finish found =>
      have active := active_of_phase found (by simp [ACTIVE])
      exact ⟨fun _ => sound.claimed active, fun _ => sound.maintenance active⟩
  | verify found =>
      have active := active_of_phase found (by simp [ACTIVE])
      exact ⟨fun _ => sound.claimed active, fun _ => sound.maintenance active⟩
  | succeed _ =>
      have idle : ¬ active { before with
          phase := some .succeeded, maintenance := some (.bool false) } :=
        not_active_of_phase rfl (by simp [ACTIVE])
      exact ⟨fun active => absurd active idle, fun active => absurd active idle⟩
  | interrupt _ =>
      have idle : ¬ active { before with
          phase := some .blocked, maintenance := some (.bool true) } :=
        not_active_of_phase rfl (by simp [ACTIVE])
      exact ⟨fun active => absurd active idle, fun active => absurd active idle⟩
  | remark _ => exact sound
  | @block _ keep armed _ _ =>
      have idle : ¬ active { before with
          phase := some .blocked, maintenance := some (.bool keep), armed } :=
        not_active_of_phase rfl (by simp [ACTIVE])
      exact ⟨fun active => absurd active idle, fun active => absurd active idle⟩

end Record

/-- The phases that may follow a phase. -/
inductive Phase.Next : Phase → Phase → Prop
  | prepare : Next .pending .preparingBoot
  | await : Next .preparingBoot .awaitingLive
  | install : Next .awaitingLive .installing
  | finish : Next .installing .awaitingInstalled
  | verify : Next .awaitingInstalled .verifying
  | succeed : Next .verifying .succeeded
  | blockPreparing : Next .preparingBoot .blocked
  | blockAwaiting : Next .awaitingLive .blocked
  | blockInstalling : Next .installing .blocked

namespace Record

theorem Step.known {move : Move} {before after : Record} (step : Step move before after)
    (known : before.phase ≠ none) : after.phase ≠ none := by
  cases step with
  | note _ => exact known
  | arm _ => exact known
  | pin _ => exact known
  | enroll _ => exact known
  | remark _ => exact known
  | _ => exact Option.some_ne_none _

/-- One write leaves the phase alone or moves it along. -/
theorem Step.phase {move : Move} {before after : Record} (step : Step move before after)
    (sound : before.Sound) (known : before.phase ≠ none) :
    after.phase = before.phase ∨
      ∃ earlier later, before.phase = some earlier ∧ after.phase = some later ∧
        Phase.Next earlier later := by
  cases step with
  | note _ => exact .inl rfl
  | claim free _ =>
      have found := (fresh_of_claimable sound free).resolve_left known
      exact .inr ⟨_, _, found, rfl, .prepare⟩
  | arm _ => exact .inl rfl
  | await found => exact .inr ⟨_, _, found, rfl, .await⟩
  | pin _ => exact .inl rfl
  | enroll _ => exact .inl rfl
  | install found => exact .inr ⟨_, _, found, rfl, .install⟩
  | finish found => exact .inr ⟨_, _, found, rfl, .finish⟩
  | verify found => exact .inr ⟨_, _, found, rfl, .verify⟩
  | succeed found => exact .inr ⟨_, _, found, rfl, .succeed⟩
  | interrupt found => exact .inr ⟨_, _, found, rfl, .blockInstalling⟩
  | remark _ => exact .inl rfl
  | block found _ =>
      rcases found with found | found | found
      · exact .inr ⟨_, _, found, rfl, .blockPreparing⟩
      · exact .inr ⟨_, _, found, rfl, .blockAwaiting⟩
      · exact .inr ⟨_, _, found, rfl, .blockInstalling⟩

/-- What is pinned by the claim. -/
def pinned (record : Record) : Option Json × Option Json × Option Json :=
  (record.snapshot, record.attemptID, record.sourceBootID)

theorem Step.pinned {move : Move} {before after : Record} (step : Step move before after)
    (sound : before.Sound) (started : ¬ before.fresh) :
    after.pinned = before.pinned ∧ ¬ after.fresh := by
  cases step with
  | claim free _ => exact absurd (fresh_of_claimable sound free) started
  | arm found => exact ⟨rfl, started⟩
  | enroll found => exact ⟨rfl, started⟩
  | note _ => exact ⟨rfl, started⟩
  | pin _ => exact ⟨rfl, started⟩
  | remark _ => exact ⟨rfl, started⟩
  | _ => exact ⟨rfl, by simp [fresh]⟩

theorem Step.claims {move : Move} {before after : Record} (step : Step move before after)
    (fresh : before.fresh) (started : ¬ after.fresh) : move = .claim := by
  have wrong : ∀ phase : Phase, before.phase = some phase → phase ≠ .pending → False := by
    intro phase found different
    rcases fresh with absent | pending
    · simp [absent] at found
    · exact different (Option.some.inj (found.symm.trans pending))
  cases step with
  | claim _ _ => rfl
  | note _ => exact absurd fresh started
  | remark found =>
      obtain ⟨phase, member, same⟩ := found
      exact (wrong phase same (by rintro rfl; simp [ACTIVE] at member)).elim
  | block found _ =>
      rcases found with found | found | found <;> exact (wrong _ found (by simp)).elim
  | _ => exact (wrong _ ‹_› (by simp)).elim

/-- The destructive stage may have been entered, and ownership is still held
unless the run succeeded. -/
def entered (record : Record) : Prop :=
  record.phase = some .succeeded ∨
    record.maintenance = some (.bool true) ∧
      (record.phase = some .installing ∨ record.phase = some .awaitingInstalled ∨
        record.phase = some .verifying ∨ record.phase = some .blocked)

theorem Step.entered {move : Move} {before after : Record} (step : Step move before after)
    (sound : before.Sound) (inside : before.entered) : after.entered := by
  have wrong : ∀ phase : Phase, before.phase = some phase →
      phase = .pending ∨ phase = .preparingBoot ∨ phase = .awaitingLive → False := by
    intro phase found which
    rcases inside with inside | ⟨_, inside | inside | inside | inside⟩ <;>
      · rw [found] at inside
        rcases which with rfl | rfl | rfl <;> simp at inside
  cases step with
  | claim free _ =>
      rcases fresh_of_claimable sound free with absent | pending
      · rcases inside with inside | ⟨_, inside | inside | inside | inside⟩ <;> simp [absent] at inside
      · exact (wrong _ pending (.inl rfl)).elim
  | arm found => exact (wrong _ found (.inr (.inl rfl))).elim
  | await found => exact (wrong _ found (.inr (.inl rfl))).elim
  | enroll found => exact (wrong _ found (.inr (.inr rfl))).elim
  | install found => exact (wrong _ found (.inr (.inr rfl))).elim
  | note _ => exact inside
  | pin _ => exact inside
  | remark _ => exact inside
  | finish found =>
      exact .inr ⟨sound.maintenance (active_of_phase found (by simp [ACTIVE])), .inr (.inl rfl)⟩
  | verify found =>
      exact .inr ⟨sound.maintenance (active_of_phase found (by simp [ACTIVE])), .inr (.inr (.inl rfl))⟩
  | succeed _ => exact .inl rfl
  | interrupt _ => exact .inr ⟨rfl, .inr (.inr (.inr rfl))⟩
  | block found keep =>
      rcases found with found | found | found
      · exact (wrong _ found (.inr (.inl rfl))).elim
      · exact (wrong _ found (.inr (.inr rfl))).elim
      · rw [keep found]
        exact .inr ⟨rfl, .inr (.inr (.inr rfl))⟩

/-- The destructive stage has returned. -/
def installed (record : Record) : Prop :=
  record.phase = some .awaitingInstalled ∨ record.phase = some .verifying ∨
    record.phase = some .succeeded

theorem Step.installed {move : Move} {before after : Record} (step : Step move before after)
    (inside : after.installed) : before.installed ∨ move = .finish := by
  cases step with
  | finish _ => exact .inr rfl
  | verify found => exact .inl (.inl found)
  | succeed found => exact .inl (.inr (.inl found))
  | note _ => exact .inl inside
  | arm found => exact .inl inside
  | pin _ => exact .inl inside
  | enroll _ => exact .inl inside
  | remark _ => exact .inl inside
  | _ => simp [Record.installed] at inside

theorem Step.succeeds {move : Move} {before after : Record} (step : Step move before after)
    (ended : after.phase = some .succeeded) (moved : before.phase ≠ some .succeeded) :
    move = .succeed := by
  cases step with
  | succeed _ => rfl
  | note _ => exact absurd ended moved
  | arm _ => exact absurd ended moved
  | pin _ => exact absurd ended moved
  | enroll _ => exact absurd ended moved
  | remark _ => exact absurd ended moved
  | _ => simp at ended

/-- The run retains lifecycle maintenance. -/
def held (record : Record) : Prop :=
  record.phase ≠ some .pending ∧ record.maintenance.any Json.truthy = true

/-- An attempt under way retains maintenance. -/
def maintained (record : Record) : Prop :=
  record.active → record.maintenance.any Json.truthy = true

theorem Step.maintained {move : Move} {before after : Record} (step : Step move before after)
    (maintained : before.maintained) : after.maintained := by
  cases step with
  | note _ => exact maintained
  | claim _ _ => exact fun _ => rfl
  | arm found => exact fun _ => maintained (active_of_phase found (by simp [ACTIVE]))
  | await found => exact fun _ => maintained (active_of_phase found (by simp [ACTIVE]))
  | pin _ => exact maintained
  | enroll found => exact fun _ => maintained (active_of_phase found (by simp [ACTIVE]))
  | install found => exact fun _ => maintained (active_of_phase found (by simp [ACTIVE]))
  | finish found => exact fun _ => maintained (active_of_phase found (by simp [ACTIVE]))
  | verify found => exact fun _ => maintained (active_of_phase found (by simp [ACTIVE]))
  | remark _ => exact maintained
  | _ => exact fun active => absurd active (not_active_of_phase rfl (by simp [ACTIVE]))

/-- Only a claim makes a run retain maintenance that did not. -/
theorem Step.held {move : Move} {before after : Record} (step : Step move before after)
    (maintained : before.maintained) (held : after.held) : before.held ∨ move = .claim := by
  have kept : ∀ phase, before.phase = some phase → phase ∈ ACTIVE → before.held := by
    intro phase found member
    refine ⟨?_, maintained (active_of_phase found member)⟩
    rintro pending
    rw [found] at pending
    cases pending
    simp [ACTIVE] at member
  cases step with
  | note _ => exact .inl held
  | claim _ _ => exact .inr rfl
  | pin _ => exact .inl held
  | remark _ => exact .inl held
  | block found _ =>
      left
      rcases found with found | found | found <;> exact kept _ found (by simp [ACTIVE])
  | _ => exact .inl (kept _ ‹_› (by simp [ACTIVE]))

/-- A boot selection may have been made: the attempt is armed or has moved on. -/
def selected (record : Record) : Prop :=
  ∃ phase, record.phase = some phase ∧ phase ≠ .pending ∧ (phase = .preparingBoot → record.armed = true)

theorem Step.selected {move : Move} {before after : Record} (step : Step move before after)
    (sound : before.Sound) (chosen : before.selected) : after.selected := by
  obtain ⟨phase, found, started, armed⟩ := chosen
  cases step with
  | claim free _ =>
      rcases fresh_of_claimable sound free with absent | pending
      · simp [absent] at found
      · rw [pending] at found
        exact absurd (Option.some.inj found).symm started
  | arm prior => exact ⟨_, prior, by simp, fun _ => rfl⟩
  | enroll prior => exact ⟨_, prior, by simp, by simp⟩
  | note _ => exact ⟨phase, found, started, armed⟩
  | pin _ => exact ⟨phase, found, started, armed⟩
  | remark _ => exact ⟨phase, found, started, armed⟩
  | _ => exact ⟨_, rfl, by simp, by simp⟩

/-- Records one can arrive at by writes of passes. -/
def Reaches : Record → Record → Prop := Relation.ReflTransGen fun before after => ∃ move, Step move before after

theorem Reaches.sound {before after : Record} (reaches : Reaches before after) (sound : before.Sound) :
    after.Sound := by
  induction reaches with
  | refl => exact sound
  | tail _ step ih =>
      obtain ⟨move, step⟩ := step
      exact step.sound ih

theorem Reaches.selected {before after : Record} (reaches : Reaches before after)
    (sound : before.Sound) (chosen : before.selected) : after.selected := by
  induction reaches with
  | refl => exact chosen
  | tail earlier step ih =>
      obtain ⟨move, step⟩ := step
      exact step.selected (Reaches.sound earlier sound) ih

theorem Reaches.entered {before after : Record} (reaches : Reaches before after)
    (sound : before.Sound) (inside : before.entered) : after.entered := by
  induction reaches with
  | refl => exact inside
  | tail earlier step ih =>
      obtain ⟨move, step⟩ := step
      exact step.entered (Reaches.sound earlier sound) ih

theorem Reaches.pinned {before after : Record} (reaches : Reaches before after)
    (sound : before.Sound) (started : ¬ before.fresh) :
    after.pinned = before.pinned ∧ ¬ after.fresh := by
  induction reaches with
  | refl => exact ⟨rfl, started⟩
  | tail earlier step ih =>
      obtain ⟨move, step⟩ := step
      obtain ⟨same, later⟩ := step.pinned (Reaches.sound earlier sound) ih.2
      exact ⟨same.trans ih.1, later⟩

/-- Succeeded and Blocked are never left, and nothing changes in them. -/
theorem Step.terminal {move : Move} {before after : Record} (step : Step move before after)
    (ended : before.phase = some .succeeded ∨ before.phase = some .blocked) : False := by
  have wrong : ∀ phase : Phase, before.phase = some phase → phase ≠ .succeeded → phase ≠ .blocked →
      False := by
    intro phase found notSucceeded notBlocked
    rcases ended with ended | ended
    · exact notSucceeded (Option.some.inj (found.symm.trans ended))
    · exact notBlocked (Option.some.inj (found.symm.trans ended))
  cases step with
  | claim free _ =>
      rcases ended with ended | ended
      · exact free.1 ended
      · exact free.2.1 ended
  | remark found =>
      obtain ⟨phase, member, same⟩ := found
      refine wrong phase same ?_ ?_ <;> rintro rfl <;> simp [ACTIVE] at member
  | block found _ =>
      rcases found with found | found | found <;> exact wrong _ found (by simp) (by simp)
  | _ => exact wrong _ ‹_› (by simp) (by simp)

theorem Reaches.terminal {before after : Record} (reaches : Reaches before after)
    (ended : before.phase = some .succeeded ∨ before.phase = some .blocked) : after = before := by
  induction reaches with
  | refl => rfl
  | tail earlier step ih =>
      obtain ⟨move, step⟩ := step
      subst ih
      exact (step.terminal ended).elim

end Record

end Homelab.Provisioning
