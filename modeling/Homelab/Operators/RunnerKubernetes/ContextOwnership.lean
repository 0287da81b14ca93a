import Homelab.Operators.RunnerKubernetes.Kubeconfig
import Homelab.Operators.RunnerKubernetes.SetupContext
import Homelab.Operators.Configurations.Transport

namespace Homelab.RunnerKubernetes

open Interaction (Op Program Contract Extends)

/-! # Who owns the kubeconfig -/

/-- How far a run has come, from what it has seen and done itself. -/
inductive Phase where
  | entered
  | guarded
  | plain
  | owned
  | removed
  | cleared
  | checked
  | marked
  | opened
deriving DecidableEq

namespace Phase

def next (phase : Phase) : (request : shell.Request) → shell.Reply request → Phase
  | .inl (.isSymlink .ownership), .ok false => .guarded
  | .inl (.isSymlink .config), .ok false => .plain
  | .inl (.isFile .ownership), .ok true => .owned
  | .inl (.isFile .ownership), .ok false => .cleared
  | .inl (.unlink .config _), .ok _ => .removed
  | .inl (.unlink .ownership _), .ok _ => .cleared
  | .inl (.present .config), .ok false => .checked
  | .inl (.openTruncated .ownership), .ok _ => .marked
  | .inl (.openTruncated .config), .ok _ => .opened
  | _, _ => phase

/-- The requests that a run issues in a phase. -/
def Permits (phase : Phase) : shell.Request → Prop
  | .inl (.isSymlink .ownership) => phase = .entered
  | .inl (.isSymlink .config) => phase = .guarded
  | .inl (.isFile .ownership) => phase = .plain
  | .inl (.unlink .config _) => phase = .owned
  | .inl (.unlink .ownership _) => phase = .removed
  | .inl (.present .config) => phase = .cleared
  | .inl (.openTruncated .ownership) => phase = .checked
  | .inl (.write .ownership _) => phase = .marked
  | .inl (.openTruncated .config) => phase = .marked
  | .inl (.write .config _) => phase = .opened
  | _ => True

end Phase

def phaseOf (trace : Interaction.Trace shell) : Phase :=
  trace.foldl (fun phase event => phase.next event.request event.reply) .entered

@[simp] theorem phaseOf_append (trace : Interaction.Trace shell) (event : Interaction.Event shell) :
    phaseOf (trace ++ [event]) = (phaseOf trace).next event.request event.reply := by
  simp [phaseOf]

/-- A run goes through the phases in order. -/
def orderly : Contract shell where
  guard trace request := (phaseOf trace).Permits request
  rely _ _ := True

theorem phaseOf_extends {trace later : Interaction.Trace shell}
    (extended : Extends (interface.Inner FileCall FileCall.Value) trace later) : phaseOf later = phaseOf trace := by
  obtain ⟨events, rfl, inner⟩ := extended
  induction events using List.reverseRecOn with
  | nil => rw [List.append_nil]
  | append_singleton earlier event ih =>
      obtain ⟨before, last⟩ := List.forall_mem_append.mp inner
      rw [← List.append_assoc, phaseOf_append, ih before]
      obtain ⟨request, reply⟩ := event
      cases request with
      | inl call => exact absurd (last ⟨.inl call, reply⟩ (List.mem_singleton.mpr rfl)) (by simp [Interaction.Interface.Inner])
      | inr request => rfl

section Orderly

variable {α : Type} {trace : Interaction.Trace shell} {phase : Phase}

/-- What is done elsewhere leaves the phase as it is. -/
theorem elsewhere_orderly (body : Task α) (reached : phaseOf trace = phase) :
    (elsewhere body).Meets orderly trace (fun later _ => phaseOf later = phase) fun _ _ => True := by
  have meets : (elsewhere body).Meets orderly trace
      (fun later _ => Extends (interface.Inner FileCall FileCall.Value) trace later)
      (fun later _ => Extends (interface.Inner FileCall FileCall.Value) trace later) := by
    apply (Op.Confined.embed body).meets
    intro later request _ inner
    cases request with
    | inl call => cases inner
    | inr request => exact True.intro
  exact meets.mono (fun later _ _ extended => (phaseOf_extends extended).trans reached) fun _ _ _ _ => True.intro

/-- A call that the phase permits leads to the next phase. -/
theorem call_orderly {call : FileCall} {ok : Interaction.Trace shell → call.Value → Prop} (reached : phaseOf trace = phase)
    (permitted : phase.Permits (.inl call))
    (next : ∀ value later, phaseOf later = phase.next (.inl call) (.ok value) → ok later value) :
    call.run.Meets orderly trace ok fun _ _ => True := by
  apply Op.meets_perform.mpr
  refine ⟨?_, fun value _ => next value _ ?_, fun _ _ => True.intro⟩
  · rw [← reached] at permitted
    exact permitted
  · rw [phaseOf_append, reached]

theorem anySymlink_orderly (reached : phaseOf trace = .entered) :
    anySymlink.Meets orderly trace (fun later linked => linked = false → phaseOf later = .plain) fun _ _ => True := by
  unfold anySymlink
  apply Op.meets_bind.mpr
  apply call_orderly reached
  · exact True.intro
  intro directory later entered
  cases directory with
  | true => exact fun impossible => nomatch impossible
  | false =>
      apply Op.meets_bind.mpr
      apply call_orderly entered
      · exact rfl
      intro ownership later guarded
      cases ownership with
      | true => exact fun impossible => nomatch impossible
      | false =>
          apply call_orderly guarded
          · exact rfl
          intro config later phase notLinked
          subst notLinked
          exact phase

theorem removeOwned_orderly (reached : phaseOf trace = .plain) :
    removeOwned.Meets orderly trace (fun later _ => phaseOf later = .cleared) fun _ _ => True := by
  unfold removeOwned
  apply Op.meets_bind.mpr
  apply call_orderly reached
  · exact rfl
  intro owned later phase
  cases owned with
  | false => exact phase
  | true =>
      apply Op.meets_bind.mpr
      apply call_orderly phase
      · exact rfl
      intro _ later removed
      apply call_orderly removed
      · exact rfl
      intro _ later cleared
      exact cleared

/-- Both files are written the same way; only the phases differ. -/
theorem writePrivate_orderly {file : KubeFile} {content : Json} {ok : Interaction.Trace shell → Unit → Prop}
    (reached : phaseOf trace = phase) (opens : phase.Permits (.inl (.openTruncated file)))
    (writes : (phase.next (.inl (.openTruncated file)) (.ok ())).Permits (.inl (.write file content)))
    (next : ∀ later, phaseOf later = phase.next (.inl (.openTruncated file)) (.ok ()) → ok later ()) :
    (writePrivate file content).Meets orderly trace ok fun _ _ => True := by
  unfold writePrivate
  apply Op.meets_bind.mpr
  apply call_orderly reached
  · exact True.intro
  intro _ later made
  apply Op.meets_bind.mpr
  apply call_orderly made
  · exact opens
  intro _ later opened
  apply Op.meets_bind.mpr
  apply call_orderly opened
  · exact writes
  intro _ later written
  apply call_orderly written
  · exact True.intro
  intro _ later final
  exact next later final

theorem installContext_orderly {env : Environment} {groupName home name : String} {group : Resource}
    {inventory : Json.Object} (reached : phaseOf trace = .cleared) :
    (installContext env groupName home name group inventory).Meets orderly trace (fun _ _ => True) fun _ _ => True := by
  unfold installContext
  apply Op.meets_bind.mpr
  apply call_orderly reached
  · exact rfl
  intro present later phase
  apply Op.Meets.check _ fun _ => True.intro
  intro _ absent
  cases present with
  | true => cases absent
  | false =>
      apply Op.Meets.check _ fun _ => True.intro
      intro _ _
      apply (elsewhere_orderly _ phase).bind _ fun _ _ _ _ => True.intro
      intro later cluster _ phase
      apply Op.Meets.check _ fun _ => True.intro
      intro _ _
      apply (elsewhere_orderly _ phase).bind _ fun _ _ _ _ => True.intro
      intro later config _ phase
      apply (elsewhere_orderly _ phase).bind _ fun _ _ _ _ => True.intro
      intro later captured _ phase
      apply Op.Meets.check _ fun _ => True.intro
      intro _ _
      apply Op.Meets.check _ fun _ => True.intro
      intro version _
      apply (elsewhere_orderly _ phase).bind _ fun _ _ _ _ => True.intro
      intro later _ _ phase
      apply Op.meets_bind.mpr
      apply call_orderly phase
      · exact True.intro
      intro _ later phase
      apply Op.meets_bind.mpr
      apply call_orderly phase
      · exact True.intro
      intro _ later phase
      apply Op.meets_bind.mpr
      apply writePrivate_orderly phase
      · exact rfl
      · exact rfl
      intro later phase
      apply Op.meets_bind.mpr
      apply writePrivate_orderly phase
      · exact rfl
      · exact rfl
      intro _ _
      exact True.intro

theorem setupContext_orderly (env : Environment) (groupName home : String) :
    (setupContext env groupName home).Meets orderly [] (fun _ _ => True) fun _ _ => True := by
  unfold setupContext
  apply (anySymlink_orderly rfl).bind _ fun _ _ _ _ => True.intro
  intro later linked _ phase
  apply Op.Meets.check _ fun _ => True.intro
  intro _ plain
  cases linked with
  | true => cases plain
  | false =>
      apply (removeOwned_orderly (phase rfl)).bind _ fun _ _ _ _ => True.intro
      intro later _ _ phase
      apply (elsewhere_orderly _ phase).bind _ fun _ _ _ _ => True.intro
      intro later captured _ phase
      obtain ⟨group, inventory⟩ := captured
      dsimp only
      cases entry? group.metadata.labels clusterLabel with
      | none => exact True.intro
      | some name => exact installContext_orderly phase

end Orderly

/-! ## The two files together -/

/-- A kubeconfig of a run has the marker next to it, and the marker stands next
to no other kubeconfig. -/
structure Sound (runs : Nat) (disk : Disk) : Prop where
  marked : ∀ file run, disk.config.file? = some file → file.writer = .setup run →
    run ≤ runs ∧ disk.ownership.isRegular = true
  ours : disk.ownership.isRegular = true → disk.config = .absent ∨
    ∃ run content, disk.config = .file ⟨.setup run, content⟩

/-- What a run may rely on in each phase. -/
def Phase.Holds (run : Nat) (disk : Disk) : Phase → Prop
  | .entered => True
  | .guarded => disk.ownership.isLink = false
  | .plain => disk.ownership.isLink = false ∧ disk.config ≠ .link none
  | .owned => disk.ownership.isRegular = true
  | .removed => disk.ownership.isRegular = true ∧ disk.config = .absent
  | .cleared => disk.ownership = .absent ∧ disk.config ≠ .link none
  | .checked => disk.ownership = .absent ∧ disk.config = .absent
  | .marked => disk.ownership.isRegular = true ∧ disk.config = .absent
  | .opened => disk.ownership.isRegular = true ∧
      (disk.config = .absent ∨ ∃ content, disk.config = .file ⟨.setup run, content⟩)

theorem Phase.next_error (phase : Phase) (request : shell.Request) (failure : Exn) :
    phase.next request (.error failure) = phase := by
  cases request with
  | inr request => rfl
  | inl call => cases call <;> first | rfl | (rename_i file; cases file <;> rfl) | (rename_i file _; cases file <;> rfl)

section Steps

variable {run : Nat} {disk : Disk} {phase : Phase}

/-- Neither the invariant nor the phase looks at the content of the marker. -/
theorem Sound.ownership (sound : Sound run disk) {entry : Entry} (same : entry.isRegular = disk.ownership.isRegular) :
    Sound run { disk with ownership := entry } := by
  constructor
  · intro file earlier found wrote
    obtain ⟨bound, regular⟩ := sound.marked file earlier found wrote
    exact ⟨bound, same.trans regular⟩
  · intro regular
    exact sound.ours (same.symm.trans regular)

theorem Sound.of_absent (absent : disk.config = .absent) : Sound run disk := by
  constructor
  · intro file earlier found _
    rw [absent] at found
    cases found
  · intro _
    exact .inl absent

theorem Sound.of_ours {content : Option Json} (regular : disk.ownership.isRegular = true)
    (ours : disk.config = .file ⟨.setup run, content⟩) : Sound run disk := by
  constructor
  · intro file earlier found wrote
    rw [ours] at found
    cases found
    cases wrote
    exact ⟨Nat.le_refl _, regular⟩
  · intro _
    exact .inr ⟨run, content, ours⟩

/-- An entry that the user has supplied is not one of a run. -/
theorem Sound.not_supplied (sound : Sound run disk) (regular : disk.ownership.isRegular = true)
    (present : disk.config ≠ .absent) : ¬disk.config.Supplied := by
  intro supplied
  cases sound.ours regular with
  | inl absent => exact present absent
  | inr ours =>
      obtain ⟨earlier, content, ours⟩ := ours
      have wrote := supplied ⟨.setup earlier, content⟩ (by rw [ours]; rfl)
      cases wrote

/-- What one file system call preserves. -/
structure Kept (run : Nat) (before after : Disk) (phase : Phase) : Prop where
  sound : Sound run after
  holds : phase.Holds run after
  supplied : before.config ≠ .absent → before.config.Supplied → after.config = before.config

theorem Kept.same (sound : Sound run disk) (holds : phase.Holds run disk) : Kept run disk disk phase :=
  ⟨sound, holds, fun _ _ => rfl⟩

theorem unlink_removes {after : Disk} {file : KubeFile} {missingOk : Bool} {result : Unit}
    (done : (FileCall.unlink file missingOk).perform run disk = some (result, after)) :
    after.entry file = .absent ∧ ∀ other, other ≠ file → after.entry other = disk.entry other := by
  unfold FileCall.perform at done
  dsimp only at done
  split at done
  · rename_i missing
    cases missingOk with
    | false => cases done
    | true =>
        cases done
        exact ⟨missing, fun _ _ => rfl⟩
  · cases done
    refine ⟨by cases file <;> rfl, ?_⟩
    intro other different
    cases file <;> cases other <;> first | rfl | exact absurd rfl different

theorem protect_same {after : Disk} {file : KubeFile} {result : Unit}
    (done : (FileCall.protect file).perform run disk = some (result, after)) : after = disk := by
  change (if (disk.entry file).file?.isSome then some ((), disk) else none) = _ at done
  split at done
  · cases done
    rfl
  · cases done

theorem unlinkConfig_kept {after : Disk} {missingOk : Bool} {result : Unit} (sound : Sound run disk)
    (regular : disk.ownership.isRegular = true)
    (done : (FileCall.unlink .config missingOk).perform run disk = some (result, after)) :
    Kept run disk after .removed := by
  obtain ⟨absent, others⟩ := unlink_removes done
  have same : after.ownership = disk.ownership := others .ownership (by decide)
  refine ⟨.of_absent absent, ⟨by rw [same]; exact regular, absent⟩, ?_⟩
  intro present supplied
  exact (sound.not_supplied regular present supplied).elim

theorem unlinkOwnership_kept {after : Disk} {missingOk : Bool} {result : Unit}
    (absent : disk.config = .absent)
    (done : (FileCall.unlink .ownership missingOk).perform run disk = some (result, after)) :
    Kept run disk after .cleared := by
  obtain ⟨missing, others⟩ := unlink_removes done
  have same : after.config = disk.config := others .config (by decide)
  refine ⟨.of_absent (same.trans absent), ⟨missing, ?_⟩, fun _ _ => same⟩
  rw [same, absent]
  intro linked
  cases linked

/-- An entry with no file behind it, that is no dangling link. -/
theorem Entry.absent_of {entry : Entry} (missing : entry.file?.isSome = false) (real : entry ≠ .link none) :
    entry = .absent := by
  cases entry with
  | absent => rfl
  | file found => cases missing
  | link target =>
      cases target with
      | none => exact absurd rfl real
      | some found => cases missing

theorem isFile_kept {after : Disk} {found : Bool} (sound : Sound run disk) (plain : Phase.plain.Holds run disk)
    (done : (FileCall.isFile .ownership).perform run disk = some (found, after)) :
    Kept run disk after (Phase.plain.next (.inl (.isFile .ownership)) (.ok found)) := by
  obtain ⟨notLink, real⟩ := plain
  cases done
  cases marker : disk.ownership with
  | link target =>
      rw [marker] at notLink
      cases notLink
  | absent =>
      rw [show (disk.entry .ownership).file?.isSome = false by rw [Disk.entry, marker]; rfl]
      exact .same sound ⟨marker, real⟩
  | file content =>
      rw [show (disk.entry .ownership).file?.isSome = true by rw [Disk.entry, marker]; rfl]
      apply Kept.same sound
      change disk.ownership.isRegular = true
      rw [marker]
      rfl

theorem present_kept {after : Disk} {found : Bool} (sound : Sound run disk) (cleared : Phase.cleared.Holds run disk)
    (done : (FileCall.present .config).perform run disk = some (found, after)) :
    Kept run disk after (Phase.cleared.next (.inl (.present .config)) (.ok found)) := by
  obtain ⟨unmarked, real⟩ := cleared
  cases done
  cases missing : (disk.entry .config).file?.isSome with
  | true => exact .same sound ⟨unmarked, real⟩
  | false => exact .same sound ⟨unmarked, Entry.absent_of missing real⟩

theorem openOwnership_kept {after : Disk} {result : Unit} (checked : Phase.checked.Holds run disk)
    (done : (FileCall.openTruncated .ownership).perform run disk = some (result, after)) :
    Kept run disk after .marked := by
  obtain ⟨unmarked, absent⟩ := checked
  cases done
  refine ⟨.of_absent absent, ⟨?_, absent⟩, fun _ _ => rfl⟩
  rw [Disk.entry, unmarked]
  rfl

theorem openConfig_kept {after : Disk} {result : Unit} (marked : Phase.marked.Holds run disk)
    (done : (FileCall.openTruncated .config).perform run disk = some (result, after)) :
    Kept run disk after .opened := by
  obtain ⟨regular, absent⟩ := marked
  cases done
  have ours : (disk.put ((disk.entry .config).opened (.setup run)) .config).config = .file ⟨.setup run, none⟩ := by
    rw [Disk.entry, absent]
    rfl
  exact ⟨.of_ours regular ours, ⟨regular, .inr ⟨none, ours⟩⟩, fun present _ => absurd absent present⟩

theorem writeOwnership_kept {after : Disk} {content : Json} {result : Unit} (sound : Sound run disk)
    (marked : Phase.marked.Holds run disk)
    (done : (FileCall.write .ownership content).perform run disk = some (result, after)) :
    Kept run disk after .marked := by
  obtain ⟨regular, absent⟩ := marked
  cases done
  have same : ((disk.entry .ownership).written (.setup run) content).isRegular = disk.ownership.isRegular := by
    change (disk.ownership.written (.setup run) content).isRegular = _
    cases disk.ownership with
    | absent => rfl
    | file found => rfl
    | link target => cases target <;> rfl
  exact ⟨sound.ownership same, ⟨same.trans regular, absent⟩, fun _ _ => rfl⟩

theorem writeConfig_kept {after : Disk} {content : Json} {result : Unit} (sound : Sound run disk)
    (opened : Phase.opened.Holds run disk)
    (done : (FileCall.write .config content).perform run disk = some (result, after)) :
    Kept run disk after .opened := by
  obtain ⟨regular, config⟩ := opened
  cases done
  cases config with
  | inl absent =>
      have still : (disk.put ((disk.entry .config).written (.setup run) content) .config).config = .absent := by
        rw [Disk.entry, absent]
        rfl
      exact ⟨.of_absent still, ⟨regular, .inl still⟩, fun present _ => absurd absent present⟩
  | inr ours =>
      obtain ⟨earlier, ours⟩ := ours
      have written : (disk.put ((disk.entry .config).written (.setup run) content) .config).config =
          .file ⟨.setup run, some content⟩ := by
        rw [Disk.entry, ours]
        simp [Disk.put, Entry.written]
      refine ⟨.of_ours regular written, ⟨regular, .inr ⟨_, written⟩⟩, ?_⟩
      intro present supplied
      exact (sound.not_supplied regular present supplied).elim

/-- A call that succeeds keeps the two files together, and the entries of the user. -/
theorem perform_kept {call : FileCall} {result : call.Value} {after : Disk} (sound : Sound run disk)
    (holds : phase.Holds run disk) (permitted : phase.Permits (.inl call))
    (done : call.perform run disk = some (result, after)) :
    Kept run disk after (phase.next (.inl call) (.ok result)) := by
  cases call with
  | directoryIsSymlink =>
      cases done
      exact .same sound holds
  | isSymlink file =>
      cases done
      cases file with
      | ownership =>
          cases linked : (disk.entry .ownership).isLink with
          | true => exact .same sound holds
          | false => exact .same sound linked
      | config =>
          cases permitted
          cases linked : (disk.entry .config).isLink with
          | true => exact .same sound holds
          | false =>
              refine .same sound ⟨holds, ?_⟩
              intro dangling
              change disk.config.isLink = false at linked
              rw [dangling] at linked
              cases linked
  | isFile file =>
      cases file with
      | ownership =>
          cases permitted
          exact isFile_kept sound holds done
      | config =>
          cases done
          exact .same sound holds
  | present file =>
      cases file with
      | ownership =>
          cases done
          exact .same sound holds
      | config =>
          cases permitted
          exact present_kept sound holds done
  | unlink file missingOk =>
      cases file with
      | ownership =>
          cases permitted
          exact unlinkOwnership_kept holds.2 done
      | config =>
          cases permitted
          exact unlinkConfig_kept sound holds done
  | makeDirectory =>
      cases done
      exact .same sound holds
  | protectDirectory =>
      cases done
      exact .same sound holds
  | openTruncated file =>
      cases file with
      | ownership =>
          cases permitted
          exact openOwnership_kept holds done
      | config =>
          cases permitted
          exact openConfig_kept holds done
  | write file content =>
      cases file with
      | ownership =>
          cases permitted
          exact writeOwnership_kept sound holds done
      | config =>
          cases permitted
          exact writeConfig_kept sound holds done
  | protect file =>
      have same := protect_same done
      subst same
      exact .same sound holds

end Steps

/-! ## Careful sessions -/

/-- Whether the user may put this entry at the path while a run is in a phase. -/
def Phase.Yields (entry : Entry) : Phase → Prop
  | .entered => True
  | .guarded => True
  | .plain => entry ≠ .link none
  | .cleared => entry ≠ .link none
  | _ => False

/-- The run has come past the removal of the old kubeconfig. -/
def Phase.Removed : Phase → Prop
  | .entered => False
  | .guarded => False
  | .plain => False
  | .owned => False
  | _ => True

/-- The user supplies an entry only next to no marker and to no run that has
looked at the path already; a run that does not succeed stops before its
removal only where there is nothing to remove. -/
def Careful (session : Session) : Move → Prop
  | .edit entry => entry = .absent ∨ session.world.disk.ownership.isRegular = false ∧
      ∀ running, session.current = some running → (phaseOf running.trace).Yields entry
  | .stop outcome => outcome = some (.ok true) ∨ session.world.disk.ownership.isRegular = false ∨
      session.world.disk.config = .absent ∨
      ∀ running, session.current = some running → (phaseOf running.trace).Removed
  | _ => True

/-- What holds between the steps of a careful session. -/
structure Orderly (session : Session) : Prop where
  sound : Sound session.runs session.world.disk
  holds : ∀ running, session.current = some running → (phaseOf running.trace).Holds session.runs session.world.disk
  meets : ∀ running, session.current = some running → running.rest.Meets orderly running.trace fun _ _ => True

section Sessions

variable {env : Environment} {groupName home : String} {session after : Session} {entry : Entry}

theorem Sound.supply {runs : Nat} {disk : Disk} (unmarked : disk.ownership.isRegular = false)
    (supplied : entry.Supplied) : Sound runs { disk with config := entry } := by
  constructor
  · intro file run found wrote
    have user := supplied file found
    rw [user] at wrote
    cases wrote
  · intro regular
    exact absurd (unmarked.symm.trans regular) (by decide)

theorem Phase.Holds.remove {phase : Phase} {run : Nat} {disk : Disk} (holds : phase.Holds run disk) :
    phase.Holds run { disk with config := .absent } := by
  have real : (.absent : Entry) ≠ .link none := by
    intro linked
    cases linked
  cases phase with
  | entered => exact True.intro
  | guarded => exact holds
  | plain => exact ⟨holds.1, real⟩
  | owned => exact holds
  | removed => exact ⟨holds.1, rfl⟩
  | cleared => exact ⟨holds.1, real⟩
  | checked => exact ⟨holds.1, rfl⟩
  | marked => exact ⟨holds.1, rfl⟩
  | opened => exact ⟨holds.1, .inl rfl⟩

theorem Phase.Holds.supply {phase : Phase} {run : Nat} {disk : Disk} (holds : phase.Holds run disk)
    (yields : phase.Yields entry) : phase.Holds run { disk with config := entry } := by
  cases phase with
  | entered => exact True.intro
  | guarded => exact holds
  | plain => exact ⟨holds.1, yields⟩
  | cleared => exact ⟨holds.1, yields⟩
  | _ => cases yields

theorem Orderly.edit (kept : Orderly session) (supplied : entry.Supplied) (careful : Careful session (.edit entry)) :
    Orderly { session with world.disk.config := entry } := by
  cases careful with
  | inl absent =>
      subst absent
      exact ⟨.of_absent rfl, fun running active => (kept.holds running active).remove, kept.meets⟩
  | inr free =>
      obtain ⟨unmarked, yields⟩ := free
      exact ⟨.supply unmarked supplied,
        fun running active => (kept.holds running active).supply (yields running active), kept.meets⟩

/-- The pending request of a run, answered in any way. -/
theorem Orderly.act {trace : Interaction.Trace shell} {request : shell.Request} {reply : shell.Reply request}
    {resume : shell.Reply request → Program shell (Except Exn Bool)} {world : World} (kept : Orderly session)
    (pending : session.current = some ⟨trace, .call request resume⟩)
    (served : Serve session.runs session.world request reply world) :
    Orderly { session with world, current := some ⟨trace ++ [⟨request, reply⟩], resume reply⟩ } ∧
      (session.world.disk.config ≠ .absent → session.world.disk.config.Supplied →
        world.disk.config = session.world.disk.config) := by
  obtain ⟨permitted, next⟩ := kept.meets _ pending
  have holds := kept.holds _ pending
  have step : Kept session.runs session.world.disk world.disk ((phaseOf trace).next request reply) := by
    cases served with
    | api answered => exact .same kept.sound holds
    | failed =>
        rw [Phase.next_error]
        exact .same kept.sound holds
    | performed done => exact perform_kept kept.sound holds permitted done
  refine ⟨⟨step.sound, ?_, ?_⟩, step.supplied⟩
  · intro running active
    cases active
    rw [phaseOf_append]
    exact step.holds
  · intro running active
    cases active
    exact next reply True.intro

theorem Orderly.step {move : Move} (kept : Orderly session) (careful : Careful session move)
    (taken : Step env groupName home session move after) : Orderly after := by
  cases taken with
  | begin idle =>
      refine ⟨⟨?_, kept.sound.ours⟩, ?_, ?_⟩
      · intro file run found wrote
        obtain ⟨bound, regular⟩ := kept.sound.marked file run found wrote
        exact ⟨Nat.le_succ_of_le bound, regular⟩
      · intro running active
        cases active
        exact True.intro
      · intro running active
        cases active
        apply Program.Meets.mono (setupContext_orderly env groupName home)
        intro _ _ _ _
        exact True.intro
  | act pending served => exact (kept.act pending served).1
  | finish ended => exact ⟨kept.sound, fun _ active => (nomatch active), fun _ active => (nomatch active)⟩
  | kill active => exact ⟨kept.sound, fun _ active => (nomatch active), fun _ active => (nomatch active)⟩
  | edit supplied => exact kept.edit supplied careful
  | api => exact ⟨kept.sound, kept.holds, kept.meets⟩

theorem Reaches.orderly {initial : World} (supplied : initial.disk.config.Supplied)
    (unmarked : initial.disk.ownership.isRegular = false)
    (reached : Reaches env groupName home Careful initial session) : Orderly session := by
  induction reached with
  | init =>
      exact ⟨@Sound.supply initial.disk.config 0 initial.disk unmarked supplied, fun _ active => (nomatch active),
        fun _ active => (nomatch active)⟩
  | step earlier permitted taken ih => exact ih.step permitted taken

/-- A kubeconfig of a run is the one of this run, once the old one is removed. -/
theorem Phase.Holds.latest {phase : Phase} {run earlier : Nat} {disk : Disk} {file : File}
    (sound : Sound run disk) (holds : phase.Holds run disk) (removed : phase.Removed)
    (found : disk.config.file? = some file) (wrote : file.writer = .setup earlier) : earlier = run := by
  obtain ⟨_, regular⟩ := sound.marked file earlier found wrote
  have gone (absent : disk.config = .absent) : earlier = run := by
    rw [absent] at found
    cases found
  cases phase with
  | removed => exact gone holds.2
  | cleared =>
      rw [holds.1] at regular
      cases regular
  | checked => exact gone holds.2
  | marked => exact gone holds.2
  | opened =>
      cases holds.2 with
      | inl absent => exact gone absent
      | inr ours =>
          obtain ⟨content, ours⟩ := ours
          rw [ours] at found
          cases found
          cases wrote
          rfl
  | _ => cases removed

theorem Orderly.stopped {outcome : Option (Except Exn Bool)} {running : Running} {file : File} {earlier : Nat}
    (kept : Orderly session) (active : session.current = some running) (careful : Careful session (.stop outcome))
    (failed : outcome ≠ some (.ok true)) (found : session.world.disk.config.file? = some file)
    (wrote : file.writer = .setup earlier) : earlier = session.runs := by
  rcases careful with success | unmarked | absent | removed
  · exact absurd success failed
  · obtain ⟨_, regular⟩ := kept.sound.marked file earlier found wrote
    exact absurd (unmarked.symm.trans regular) (by decide)
  · rw [absent] at found
    cases found
  · exact (kept.holds running active).latest kept.sound (removed running active) found wrote

end Sessions

namespace Rehearsal

/-! ### A labeled group, whose cluster has one control plane -/

def labels (role : String) : List (String × String) :=
  [(clusterLabel, "lab"), ("homelab.io/kube-role", role)]

def controlPlane : Resource :=
  { Configurations.Rehearsal.server with
    metadata := { Configurations.Rehearsal.server.metadata with labels := some (labels "control-plane") } }

def labeledGroup : Resource :=
  { Configurations.Rehearsal.group with
    metadata := { Configurations.Rehearsal.group.metadata with labels := some [(clusterLabel, "lab")] } }

def installable : Resource :=
  { cluster with
    spec := [("controlPlaneEndpoint", .str "lab.example:6443"), ("kubernetesVersion", .str "1.33.1"),
      ("network", .obj [("provider", .str "flannel")])] }

def captured : Store := Provisioning.Rehearsal.stored [controlPlane, labeledGroup, installable]

/-- A hash function under which the client has a digest of zeros. -/
def runner : Homelab.Environment :=
  { Provisioning.Rehearsal.executor "group" with
    sha256 := fun bytes => if bytes = bytesOf "client" then String.ofList (List.replicate 43 'A') else "digest" }

def answers : (call : Host) → Except Exn call.Value
  | .probe .. => .ok (some (.obj named))
  | .subprocess _ => .ok { returncode := 0, stdout := "x86_64" }
  | .inspectPath _ => .ok .missing
  | .download url => .ok (if url.endsWith "256" then String.ofList (List.replicate 64 '0') else "client")
  | call => .ok (Configurations.Rehearsal.host .null call)

/-- The run in progress goes on while its calls succeed. -/
def proceed : Nat → Session → Session
  | 0, session => session
  | steps + 1, session =>
      match session.current with
      | some ⟨trace, .call (.inl call) resume⟩ =>
          match call.perform session.runs session.world.disk with
          | some (result, disk) =>
              proceed steps { session with
                world.disk := disk, current := some ⟨trace ++ [⟨.inl call, .ok result⟩], resume (.ok result)⟩ }
          | none => session
      | some ⟨trace, .call (.inr request) resume⟩ =>
          proceed steps { session with
            current := some ⟨trace ++ [⟨.inr request, Api.fixed captured answers request⟩],
              resume (Api.fixed captured answers request)⟩ }
      | _ => session

def begun (session : Session) : Session :=
  { session with runs := session.runs + 1, current := some ⟨[], setupContext runner "group" "/home/runner"⟩ }

def Any (_ : Session) (_ : Move) : Prop := True

abbrev Reached (disk : Disk) (session : Session) : Prop :=
  Reaches runner "group" "/home/runner" Any ⟨captured, disk⟩ session

theorem reached_proceed {disk : Disk} {steps : Nat} {session : Session} (reached : Reached disk session)
    (same : session.world.store = captured) :
    Reached disk (proceed steps session) ∧ (proceed steps session).world.store = captured := by
  induction steps generalizing session with
  | zero => exact ⟨reached, same⟩
  | succ steps ih =>
      unfold proceed
      split
      · rename_i trace call resume pending
        split
        · rename_i result disk performed
          exact ih (reached.step True.intro (.act pending (.performed performed))) same
        · exact ⟨reached, same⟩
      · rename_i trace request resume pending
        obtain ⟨⟨store, disk⟩, runs, current⟩ := session
        cases same
        exact ih (reached.step True.intro (.act pending (.api (Api.fixed_serve request)))) rfl
      · exact ⟨reached, same⟩

def empty : Disk := ⟨false, .absent, .absent⟩

def finishes (session : Session) : Bool :=
  match session.current with
  | some ⟨_, .done (.ok true)⟩ => true
  | _ => false

def supplied : File := ⟨.user, some (.str "mine")⟩

/-- The first run has left its marker and its kubeconfig. -/
def installed (session : Session) : Bool :=
  finishes session && session.runs = 1 && !session.world.disk.directoryLinked &&
    session.world.disk.ownership.isRegular && match session.world.disk.config with
      | .file file => decide (file.writer = .setup 1)
      | _ => false

theorem finishes_ended {session : Session} (finished : finishes session = true) :
    ∃ trace, session.current = some ⟨trace, .done (.ok true)⟩ := by
  unfold finishes at finished
  split at finished
  · rename_i trace ended
    exact ⟨trace, ended⟩
  · cases finished

theorem installed_disk {store : Store} {disk : Disk} {runs : Nat} {current : Option Running}
    (done : installed ⟨⟨store, disk⟩, runs, current⟩ = true) :
    (∃ trace, current = some ⟨trace, .done (.ok true)⟩) ∧ runs = 1 ∧
      ∃ marker file, disk = ⟨false, .file marker, .file file⟩ ∧ file.writer = .setup 1 := by
  simp only [installed, Bool.and_eq_true, decide_eq_true_eq, Bool.not_eq_true'] at done
  obtain ⟨⟨⟨⟨finished, runs⟩, direct⟩, regular⟩, config⟩ := done
  refine ⟨finishes_ended finished, runs, ?_⟩
  split at config
  · rename_i file isConfig
    obtain ⟨directoryLinked, ownership, kubeconfig⟩ := disk
    cases ownership with
    | file marker =>
        cases direct
        cases isConfig
        exact ⟨marker, file, rfl, of_decide_eq_true config⟩
    | absent => cases regular
    | link target => cases regular
  · cases config

/-- The next run is about to unlink what stands next to the marker. -/
theorem next_run_unlinks (marker : File) (runs : Nat) : ∃ trace resume,
    proceed 4 (begun ⟨⟨captured, ⟨false, .file marker, .file supplied⟩⟩, runs, none⟩) =
      ⟨⟨captured, ⟨false, .file marker, .file supplied⟩⟩, runs + 1,
        some ⟨trace, .call (.inl (.unlink .config true)) resume⟩⟩ :=
  ⟨_, _, rfl⟩

theorem run_installs : ∃ marker file, Reached empty ⟨⟨captured, ⟨false, .file marker, .file file⟩⟩, 1, none⟩ ∧
    file.writer = .setup 1 := by
  obtain ⟨reached, same⟩ := @reached_proceed empty 200 (begun ⟨⟨captured, empty⟩, 0, none⟩)
    (.step .init True.intro (.begin rfl)) rfl
  have done : installed (proceed 200 (begun ⟨⟨captured, empty⟩, 0, none⟩)) = true := by decide +kernel
  generalize proceed 200 (begun ⟨⟨captured, empty⟩, 0, none⟩) = session at reached same done
  obtain ⟨⟨store, disk⟩, count, current⟩ := session
  obtain ⟨⟨trace, ended⟩, runs, marker, file, isDisk, wrote⟩ := installed_disk done
  cases ended
  cases isDisk
  cases same
  cases runs
  exact ⟨marker, file, reached.step True.intro (.finish rfl), wrote⟩

end Rehearsal

end Homelab.RunnerKubernetes
