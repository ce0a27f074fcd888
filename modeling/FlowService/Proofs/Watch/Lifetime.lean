import FlowService.Proofs.Watch.Mailboxes
import FlowService.Watch.Lifetime
import Mathlib.Data.List.Induction
import Mathlib.Data.List.Nodup

/-! A watch tells of the first fire of its path after it was made, and of nothing else. -/

namespace FlowService.ManualWatcher

variable {watcher : ManualWatcher} {calls : List Call}

/-- Looking into a mailbox with an event closes it. -/
theorem mailbox_take (number other : Nat) :
    (watcher.take number).2.mailbox other =
      if other = number ∧ watcher.mailbox number ≠ .waiting then .closed
      else watcher.mailbox other := by
  unfold take
  split
  · rename_i event holds
    simp [mailbox_close, holds]
  · -- Without an event the mailbox is waiting or closed, and stays so.
    rename_i idle
    split
    · rename_i both
      obtain ⟨rfl, shut⟩ := both
      cases found : watcher.mailbox other with
      | waiting => exact absurd found shut
      | holding event => exact absurd found (idle event)
      | closed => rfl
    · rfl

/-- Looking into a mailbox makes no watch and takes none out of those not yet fired. -/
theorem take_frame (number : Nat) :
    (watcher.take number).2.pending = watcher.pending ∧
      (watcher.take number).2.mailboxes.length = watcher.mailboxes.length := by
  unfold take
  split
  · exact ⟨rfl, List.length_set⟩
  · exact ⟨rfl, rfl⟩

/-- The event in a mailbox, if there is one. -/
def held : Mailbox → Option WatchEvent
  | .holding event => some event
  | _ => none

/-- Looking into a mailbox gives what it holds. -/
theorem take_eq_held (number : Nat) : (watcher.take number).1 = held (watcher.mailbox number) := by
  unfold take
  cases watcher.mailbox number <;> rfl

theorem after_concat (calls : List Call) (call : Call) :
    after (calls ++ [call]) = call.run (after calls) := by
  simp [after]

namespace Lifetime

/-- What a call makes of the mailbox of one watch. -/
def turn (path : Path) (number : Nat) (mailbox : Mailbox) : Call → Mailbox
  | .fire fired event =>
    if mailbox = .waiting ∧ path.sameAs fired then .holding event else mailbox
  | .close closed => if closed = number then .closed else mailbox
  | .take taken => if taken = number ∧ mailbox ≠ .waiting then .closed else mailbox
  | _ => mailbox

/-- The mailbox of a watch, as its own calls make it. -/
def mailbox (life : Lifetime) : Mailbox :=
  life.later.foldl (turn life.path life.number) .waiting

/-- A watch with one more call behind it. -/
def goOn (call : Call) (life : Lifetime) : Lifetime := { life with later := life.later ++ [call] }

variable {life : Lifetime} {call : Call}

/-- A mailbox waits after a call if it did before and the call does not end the wait. -/
theorem turn_eq_waiting_iff {path : Path} {number : Nat} {mailbox : Mailbox} :
    turn path number mailbox call = .waiting ↔
      mailbox = .waiting ∧ call.ends path number = false := by
  cases call with
  | watch | watched => simp [turn, Call.ends]
  | fire fired event =>
    by_cases same : path.sameAs fired <;> cases mailbox <;> simp [turn, Call.ends, same]
  | close closed => by_cases same : closed = number <;> simp [turn, Call.ends, same]
  | take taken => by_cases same : taken = number <;> cases mailbox <;> simp [turn, Call.ends, same]

theorem mailbox_goOn (call : Call) (life : Lifetime) :
    (life.goOn call).mailbox = turn life.path life.number life.mailbox call := by
  simp [goOn, mailbox]

theorem waits_goOn :
    (life.goOn call).waits = (life.waits && !call.ends life.path life.number) := by
  simp [goOn, waits]

/-- The event that is due to a watch is settled once its wait is over. -/
theorem due?_goOn : (life.goOn call).due? =
    if life.waits && call.ends life.path life.number then call.event? else life.due? := by
  unfold due? goOn waits
  cases found : life.later.find? (Call.ends life.path life.number) with
  | none =>
    have waiting : life.later.any (Call.ends life.path life.number) = false := by
      simpa using found
    by_cases ends : call.ends life.path life.number <;> simp [found, waiting, ends]
  | some first =>
    have fired : life.later.any (Call.ends life.path life.number) = true :=
      List.any_eq_true.mpr ⟨first, List.mem_of_find?_eq_some found, List.find?_some found⟩
    simp [found, fired]

/-- The mailbox of a watch is waiting until the path is fired or the watch is closed. -/
theorem mailbox_eq_waiting_iff (life : Lifetime) : life.mailbox = .waiting ↔ life.waits := by
  obtain ⟨path, number, later⟩ := life
  induction later using List.reverseRecOn with
  | nil => simp [mailbox, waits]
  | append_singleton later call ih =>
    have before : (⟨path, number, later ++ [call]⟩ : Lifetime) =
        goOn call ⟨path, number, later⟩ := rfl
    rw [before, mailbox_goOn, waits_goOn, turn_eq_waiting_iff, ih, Bool.and_eq_true,
      Bool.not_eq_true']

end Lifetime

open Lifetime (goOn turn)

/-- The watch that a call makes. -/
def born (number : Nat) : Call → List Lifetime
  | .watch path => [⟨path, number, []⟩]
  | _ => []

/-- One more call comes behind all that happened to the watches so far. -/
theorem lifetimesFrom_concat (number : Nat) (calls : List Call) (call : Call) :
    lifetimesFrom number (calls ++ [call]) = (lifetimesFrom number calls).map (goOn call) ++
      born (number + (lifetimesFrom number calls).length) call := by
  induction calls generalizing number with
  | nil => cases call <;> rfl
  | cons first later ih =>
    cases first with
    | watch path =>
      simp only [List.cons_append, lifetimesFrom, ih, List.map_cons, List.length_cons, goOn]
      rw [Nat.add_assoc, Nat.add_comm 1]
    | close | fire | watched | take => exact ih number

theorem lifetimes_concat (calls : List Call) (call : Call) : lifetimes (calls ++ [call]) =
    (lifetimes calls).map (goOn call) ++ born (lifetimes calls).length call := by
  have concat := lifetimesFrom_concat 0 calls call
  rwa [Nat.zero_add] at concat

/-- The watcher knows of every watch what its own calls make of it, and those that still wait stand
in order among those not yet fired. -/
structure Sound (calls : List Call) : Prop where
  numbers : (lifetimes calls).map Lifetime.number = List.range (after calls).mailboxes.length
  mailboxes : ∀ life ∈ lifetimes calls, (after calls).mailbox life.number = life.mailbox
  within : ∀ entry ∈ (after calls).pending, entry.2 < (after calls).mailboxes.length
  pending : (after calls).pending.filter (fun entry => (after calls).isOpen entry.2) =
    ((lifetimes calls).filter Lifetime.waits).map fun life => (life.path, life.number)

namespace Sound

theorem length_eq (sound : Sound calls) :
    (lifetimes calls).length = (after calls).mailboxes.length := by
  simpa using congrArg List.length sound.numbers

/-- The mailbox of a watch that was made is one of those that were made. -/
theorem number_lt (sound : Sound calls) {life : Lifetime} (member : life ∈ lifetimes calls) :
    life.number < (after calls).mailboxes.length := by
  rw [← List.mem_range, ← sound.numbers]
  exact List.mem_map_of_mem member

/-- No two watches have the same number. -/
theorem eq_of_number (sound : Sound calls) {life other : Lifetime}
    (member : life ∈ lifetimes calls) (otherMember : other ∈ lifetimes calls)
    (same : life.number = other.number) : life = other := by
  have distinct : ((lifetimes calls).map Lifetime.number).Nodup := by
    rw [sound.numbers]
    exact List.nodup_range
  exact List.inj_on_of_nodup_map distinct member otherMember same

/-- What stands open among the watches not yet fired is a watch that waits. -/
theorem exists_life (sound : Sound calls) {entry : Path × Nat}
    (member : entry ∈ (after calls).pending) (opened : (after calls).isOpen entry.2) :
    ∃ life ∈ lifetimes calls, life.waits ∧ (life.path, life.number) = entry := by
  have filtered : entry ∈ (after calls).pending.filter
      (fun entry => (after calls).isOpen entry.2) := List.mem_filter.mpr ⟨member, opened⟩
  rw [sound.pending] at filtered
  obtain ⟨life, kept, same⟩ := List.mem_map.mp filtered
  obtain ⟨made, waits⟩ := List.mem_filter.mp kept
  exact ⟨life, made, waits, same⟩

/-- A watch that waits stands among those not yet fired. -/
theorem mem_pending (sound : Sound calls) {life : Lifetime} (member : life ∈ lifetimes calls)
    (waits : life.waits) : (life.path, life.number) ∈ (after calls).pending := by
  have listed : (life.path, life.number) ∈
      ((lifetimes calls).filter Lifetime.waits).map fun life => (life.path, life.number) :=
    List.mem_map_of_mem (List.mem_filter.mpr ⟨member, waits⟩)
  rw [← sound.pending] at listed
  exact (List.mem_filter.mp listed).1

/-- A mailbox that is open and belongs to a watch not yet fired is waiting. -/
theorem waiting_of_pending (sound : Sound calls) {entry : Path × Nat}
    (member : entry ∈ (after calls).pending) (opened : (after calls).isOpen entry.2) :
    (after calls).mailbox entry.2 = .waiting := by
  obtain ⟨life, made, waits, rfl⟩ := sound.exists_life member opened
  exact (sound.mailboxes life made).trans (life.mailbox_eq_waiting_iff.mpr waits)

/-- A call that makes no watch keeps the watcher sound when it does to every mailbox, and to those
that stay open among the watches not yet fired, what it does to each watch. -/
theorem goOn (sound : Sound calls) {call : Call} {keep : Path × Nat → Bool}
    (unborn : ∀ number, born number call = [])
    (sameLength : (call.run (after calls)).mailboxes.length = (after calls).mailboxes.length)
    (boxes : ∀ life ∈ lifetimes calls, (call.run (after calls)).mailbox life.number =
      turn life.path life.number life.mailbox call)
    (left : (call.run (after calls)).pending = (after calls).pending.filter keep)
    (opened : ∀ entry ∈ (after calls).pending,
      ((call.run (after calls)).isOpen entry.2 && keep entry) =
        ((after calls).isOpen entry.2 && !call.ends entry.1 entry.2)) :
    Sound (calls ++ [call]) := by
  have lives : lifetimes (calls ++ [call]) = (lifetimes calls).map (Lifetime.goOn call) := by
    rw [lifetimes_concat, unborn, List.append_nil]
  constructor
  · rw [lives, after_concat, sameLength, ← sound.numbers, List.map_map]
    rfl
  · intro life member
    rw [lives] at member
    obtain ⟨before, made, rfl⟩ := List.mem_map.mp member
    rw [after_concat, Lifetime.mailbox_goOn]
    exact boxes before made
  · intro entry member
    rw [after_concat] at member ⊢
    rw [left] at member
    rw [sameLength]
    exact sound.within entry (List.mem_of_mem_filter member)
  · -- Those that stay open are those that were open and are not ended.
    have split : (call.run (after calls)).pending.filter
          (fun entry => (call.run (after calls)).isOpen entry.2) =
        ((after calls).pending.filter (fun entry => (after calls).isOpen entry.2)).filter
          fun entry => !call.ends entry.1 entry.2 := by
      rw [left, List.filter_filter, List.filter_filter]
      exact List.filter_congr fun entry member => (opened entry member).trans (Bool.and_comm _ _)
    rw [lives, after_concat, split, sound.pending, List.filter_map, List.filter_map, List.map_map,
      List.filter_filter]
    congr 2
    funext life
    simp [Lifetime.waits_goOn, Bool.and_comm]

/-- A watch that is new waits behind all others. -/
theorem watch (sound : Sound calls) (path : Path) : Sound (calls ++ [.watch path]) := by
  have new : (after (calls ++ [.watch path])) = ⟨(after calls).pending ++
      [(path, (after calls).mailboxes.length)], (after calls).mailboxes ++ [.waiting]⟩ := by
    rw [after_concat]
    rfl
  have lives : lifetimes (calls ++ [.watch path]) =
      (lifetimes calls).map (Lifetime.goOn (.watch path)) ++
        [⟨path, (after calls).mailboxes.length, []⟩] := by
    rw [lifetimes_concat, born, sound.length_eq]
  -- The mailboxes that were there before are the same, and the new one waits.
  have old : ∀ number < (after calls).mailboxes.length,
      (after (calls ++ [.watch path])).mailbox number = (after calls).mailbox number := by
    intro number made
    rw [new, mailbox_append _ _ (Nat.le_of_lt made), if_neg (Nat.ne_of_lt made)]
  have latest : (after (calls ++ [.watch path])).mailbox (after calls).mailboxes.length =
      .waiting := by
    rw [new, mailbox_append _ _ (Nat.le_refl _), if_pos rfl]
  constructor
  · rw [lives, List.map_append, List.map_map, List.map_singleton, new, List.length_append,
      List.length_singleton, List.range_succ, ← sound.numbers]
    rfl
  · intro life member
    rw [lives, List.mem_append, List.mem_singleton] at member
    rcases member with member | rfl
    · obtain ⟨before, made, rfl⟩ := List.mem_map.mp member
      exact (old _ (sound.number_lt made)).trans
        ((sound.mailboxes before made).trans (Lifetime.mailbox_goOn (.watch path) before).symm)
    · exact latest
  · intro entry member
    rw [new, List.length_append, List.length_singleton]
    rw [new, List.mem_append, List.mem_singleton] at member
    rcases member with member | rfl
    · exact Nat.lt_succ_of_lt (sound.within entry member)
    · exact Nat.lt_succ_self _
  · have same : ∀ entry ∈ (after calls).pending,
        (after (calls ++ [.watch path])).isOpen entry.2 = (after calls).isOpen entry.2 :=
      fun entry member => by rw [isOpen, isOpen, old _ (sound.within entry member)]
    have opened :
        (after (calls ++ [.watch path])).isOpen (after calls).mailboxes.length = true := by
      rw [isOpen, latest]
      rfl
    have pendingEq : (after (calls ++ [.watch path])).pending =
        (after calls).pending ++ [(path, (after calls).mailboxes.length)] := by rw [new]
    have waiting : Lifetime.waits ∘ Lifetime.goOn (.watch path) = Lifetime.waits :=
      funext fun life => by simp [Lifetime.waits_goOn, Call.ends]
    rw [pendingEq, List.filter_append, List.filter_congr same, sound.pending, lives,
      List.filter_append, List.filter_map, waiting]
    simp [opened, Lifetime.goOn, Lifetime.waits]

/-- Asking for the paths only drops watches that nobody waits for. -/
theorem watched (sound : Sound calls) : Sound (calls ++ [.watched]) := by
  refine sound.goOn (fun _ => rfl) rfl sound.mailboxes rfl fun entry _ => ?_
  show ((after calls).isOpen entry.2 && (after calls).isOpen entry.2) = _
  simp [Call.ends]

/-- A watch that is closed is not open any more, and all others are as before. -/
theorem close (sound : Sound calls) (number : Nat) : Sound (calls ++ [.close number]) := by
  have box (other : Nat) : ((Call.close number).run (after calls)).mailbox other =
      if other = number then .closed else (after calls).mailbox other :=
    mailbox_close number other
  refine sound.goOn (fun _ => rfl) List.length_set ?_ (List.filter_true _).symm ?_
  · intro life member
    rw [box, sound.mailboxes life member, turn]
    simp only [eq_comm]
  · intro entry _
    rw [isOpen, isOpen, box]
    by_cases same : entry.2 = number
    · simp [same, Call.ends]
    · simp [same, Ne.symm same, Call.ends]

/-- Firing a path reaches the watches of the path that wait, and uses them up. -/
theorem fire (sound : Sound calls) (path : Path) (event : WatchEvent) :
    Sound (calls ++ [.fire path event]) := by
  have box (other : Nat) : ((Call.fire path event).run (after calls)).mailbox other = _ :=
    mailbox_fire path event other
  refine sound.goOn (fun _ => rfl) (fire_length path event) ?_ (fire_pending path event) ?_
  · intro life member
    -- The watch is among those that are notified exactly if it waits and its path is fired.
    have notified : ((∃ entry ∈ (after calls).pending, entry.1.sameAs path ∧
          entry.2 = life.number) ∧ (after calls).isOpen life.number) ↔
        life.mailbox = .waiting ∧ life.path.sameAs path := by
      constructor
      · rintro ⟨⟨entry, pending, same, number⟩, opened⟩
        rw [← number] at opened
        obtain ⟨other, made, waits, rfl⟩ := sound.exists_life pending opened
        obtain rfl := sound.eq_of_number made member number
        exact ⟨other.mailbox_eq_waiting_iff.mpr waits, same⟩
      · rintro ⟨waiting, same⟩
        have pending := sound.mem_pending member (life.mailbox_eq_waiting_iff.mp waiting)
        refine ⟨⟨_, pending, same, rfl⟩, ?_⟩
        rw [isOpen, sound.mailboxes life member, waiting]
        rfl
    rw [box, turn, sound.mailboxes life member]
    simp only [notified]
  · intro entry _
    have stillOpen : ((Call.fire path event).run (after calls)).isOpen entry.2 =
        (after calls).isOpen entry.2 := by
      rw [isOpen, box]
      split
      · rename_i reached
        exact reached.2.symm
      · rfl
    rw [stillOpen]
    rfl

/-- Looking into a mailbox closes it when it holds an event, and that of no watch that waits. -/
theorem take (sound : Sound calls) (number : Nat) : Sound (calls ++ [.take number]) := by
  have box (other : Nat) : ((Call.take number).run (after calls)).mailbox other = _ :=
    mailbox_take number other
  have samePending : ((after calls).take number).2.pending = _ := (take_frame number).1
  have sameLength : ((after calls).take number).2.mailboxes.length = _ := (take_frame number).2
  refine sound.goOn (fun _ => rfl) sameLength ?_
    (samePending.trans (List.filter_true _).symm) ?_
  · intro life member
    rw [box, turn, sound.mailboxes life member]
    by_cases same : life.number = number
    · rw [← same, sound.mailboxes life member]
    · simp [same, Ne.symm same]
  · intro entry pending
    rw [isOpen, box, Bool.and_true]
    split
    · -- Its mailbox is not waiting, so it was closed before or it is no watch that waits.
      rename_i shut
      have unopened : (after calls).isOpen entry.2 = false := by
        rw [← Bool.not_eq_true]
        intro opened
        exact shut.2 (shut.1 ▸ sound.waiting_of_pending pending opened)
      rw [unopened]
      rfl
    · simp [isOpen, Call.ends]

/-- Every call keeps a watcher sound. -/
theorem call (sound : Sound calls) (call : Call) : Sound (calls ++ [call]) := by
  cases call with
  | watch path => exact sound.watch path
  | close number => exact sound.close number
  | fire path event => exact sound.fire path event
  | watched => exact sound.watched
  | take number => exact sound.take number

end Sound

/-- A watcher is sound, whatever was done with its watches. -/
theorem sound_after (calls : List Call) : Sound calls := by
  induction calls using List.reverseRecOn with
  | nil => exact ⟨rfl, nofun, nofun, rfl⟩
  | append_singleton calls call ih => exact ih.call call

theorem toldFrom_concat (watcher : ManualWatcher) (number : Nat) (calls : List Call)
    (call : Call) : toldFrom watcher number (calls ++ [call]) =
      toldFrom watcher number calls ++
        (call.taken? (calls.foldl Call.run watcher) number).toList := by
  induction calls generalizing watcher with
  | nil => simp [toldFrom]
  | cons first later ih => simp [toldFrom, ih]

/-- A watch is told by one more call what the call takes out of its mailbox. -/
theorem told_concat (number : Nat) (calls : List Call) (call : Call) :
    told number (calls ++ [call]) =
      told number calls ++ (call.taken? (after calls) number).toList :=
  toldFrom_concat empty number calls call

/-- What a call takes out of a mailbox is what it holds. -/
theorem taken?_eq (call : Call) (number : Nat) :
    call.taken? watcher number =
      if call = .take number then held (watcher.mailbox number) else none := by
  cases call with
  | take other =>
    by_cases same : other = number
    · simp [Call.taken?, same, take_eq_held]
    · simp [Call.taken?, same]
  | watch | close | fire | watched => rfl

/-- A watch that is yet to be made was not told of anything. -/
theorem told_of_unmade {number : Nat} (unmade : (lifetimes calls).length ≤ number) :
    told number calls = [] := by
  induction calls using List.reverseRecOn with
  | nil => rfl
  | append_singleton calls call ih =>
    have before : (lifetimes calls).length ≤ number := by
      rw [lifetimes_concat, List.length_append, List.length_map] at unmade
      omega
    have shut : (after calls).mailbox number = .closed := by
      rw [mailbox, List.getD_eq_getElem?_getD, List.getElem?_eq_none, Option.getD_none]
      rwa [← (sound_after calls).length_eq]
    rw [told_concat, ih before, taken?_eq, shut]
    simp [held]

namespace Lifetime

/-- What a watch was told and what its mailbox holds is what is due to it, or nothing at all since
it was closed before it was told. -/
structure Answered (told : List WatchEvent) (life : Lifetime) : Prop where
  silent : life.waits → told = []
  due : told ++ (held life.mailbox).toList = life.due?.toList ∨
    .close life.number ∈ life.later ∧ told ++ (held life.mailbox).toList = []

/-- A watch that waits has nothing due to it. -/
theorem due?_of_waits {life : Lifetime} (waits : life.waits) : life.due? = none := by
  have none : life.later.find? (Call.ends life.path life.number) = none := by
    simpa [Lifetime.waits] using waits
  rw [due?, none]
  rfl

/-- After the wait of a watch a call leaves the event in the mailbox or takes it out, or it closes
the mailbox. -/
theorem turn_held (path : Path) (number : Nat) {box : Mailbox} (busy : box ≠ .waiting)
    (call : Call) :
    (if call = .take number then held box else none).toList ++
        (held (turn path number box call)).toList = (held box).toList ∨
      call = .close number ∧ (if call = .take number then held box else none).toList ++
        (held (turn path number box call)).toList = [] := by
  cases call with
  | watch | fire | watched => exact Or.inl (by simp [turn, busy])
  | close other =>
    by_cases same : other = number
    · exact Or.inr (by simp [turn, same, held])
    · exact Or.inl (by simp [turn, same])
  | take other =>
    by_cases same : other = number
    · exact Or.inl (by simp [turn, same, busy, held])
    · exact Or.inl (by simp [turn, same])

/-- What was told already is all that is due. -/
theorem told_of_due {told : List WatchEvent} {box due : Option WatchEvent}
    (whole : told ++ box.toList = due.toList) (heard : told ≠ []) : told = due.toList := by
  cases due with
  | none => exact absurd (List.append_eq_nil_iff.mp whole).1 heard
  | some event =>
    rcases List.append_eq_singleton_iff.mp whole with ⟨empty, _⟩ | ⟨all, _⟩
    · exact absurd empty heard
    · exact all

/-- A watch stays answered when a call takes out of its mailbox what it holds. -/
theorem Answered.goOn {told : List WatchEvent} {life : Lifetime} (answered : Answered told life)
    (call : Call) :
    Answered (told ++ (if call = .take life.number then held life.mailbox else none).toList)
      (life.goOn call) := by
  have boxed := mailbox_goOn call life
  have ended : (life.goOn call).due? = _ := due?_goOn
  have going : (life.goOn call).waits = _ := waits_goOn
  by_cases waits : life.waits
  · -- Nothing was told yet and nothing was due, so only a fire of the path counts.
    have waiting := life.mailbox_eq_waiting_iff.mpr waits
    rw [waiting] at boxed
    rw [waits, due?_of_waits waits, Bool.true_and] at ended
    have untold := answered.silent waits
    have nothing : (if call = .take life.number then held life.mailbox else none) = none := by
      rw [waiting]
      exact ite_self _
    rw [nothing, untold]
    refine ⟨fun _ => rfl, Or.inl ?_⟩
    rw [boxed, ended]
    cases call with
    | fire path event =>
      by_cases same : life.path.sameAs path <;> simp [turn, Call.ends, Call.event?, held, same]
    | close number =>
      by_cases same : number = life.number <;> simp [turn, Call.ends, Call.event?, held, same]
    | watch | watched | take => simp [turn, Call.ends, held]
  · -- What is due stays so, and at most goes from the mailbox to the one who looks into it.
    have idle : life.waits = false := by simpa using waits
    have busy : life.mailbox ≠ .waiting := mt life.mailbox_eq_waiting_iff.mp waits
    rw [idle, Bool.false_and] at going
    rw [idle, Bool.false_and, if_neg Bool.false_ne_true] at ended
    refine ⟨fun again => absurd (going.symm.trans again) nofun, ?_⟩
    rw [ended, boxed, List.append_assoc]
    rcases turn_held life.path life.number busy call with same | ⟨rfl, lost⟩
    · rw [same]
      exact answered.due.imp_right fun shut => ⟨List.mem_append_left _ shut.1, shut.2⟩
    · rw [lost, List.append_nil]
      by_cases untold : told = []
      · exact Or.inr ⟨List.mem_append_right _ (List.mem_singleton.mpr rfl), untold⟩
      · -- An event that was told already is the only one that is due.
        have whole := answered.due.resolve_right fun shut =>
          untold (List.append_eq_nil_iff.mp shut.2).1
        exact Or.inl (told_of_due whole untold)

end Lifetime

/-- Every watch that was made is answered. -/
theorem answered_after (calls : List Call) :
    ∀ life ∈ lifetimes calls, life.Answered (told life.number calls) := by
  induction calls using List.reverseRecOn with
  | nil => nofun
  | append_singleton calls call ih =>
    intro life member
    have sound := sound_after calls
    rw [lifetimes_concat, List.mem_append] at member
    rw [told_concat, taken?_eq]
    rcases member with member | new
    · obtain ⟨before, made, rfl⟩ := List.mem_map.mp member
      have goesOn := (ih before made).goOn call
      rw [← sound.mailboxes before made] at goesOn
      exact goesOn
    · -- A watch that is new was not told of anything, and nothing came after it.
      cases call with
      | watch path =>
        obtain rfl := List.mem_singleton.mp new
        rw [told_of_unmade (Nat.le_refl _)]
        exact ⟨fun _ => rfl, Or.inl rfl⟩
      | close | fire | watched | take => cases new

/-- The number of a watch is how many were made before it. -/
theorem mem_lifetimesFrom (number : Nat) (before : List Call) (path : Path) (later : List Call) :
    ⟨path, number + (lifetimesFrom number before).length, later⟩ ∈
      lifetimesFrom number (before ++ .watch path :: later) := by
  induction before generalizing number with
  | nil => exact List.mem_cons_self
  | cons first before ih =>
    cases first with
    | watch other =>
      rw [lifetimesFrom, List.length_cons, ← Nat.succ_add_eq_add_succ]
      exact List.mem_cons_of_mem _ (ih (number + 1))
    | close | fire | watched | take => exact ih number

/-- A fire notifies as many as wait for its path. -/
theorem fire_count (calls : List Call) (path : Path) (event : WatchEvent) :
    ((after calls).fire path event).1 =
      (lifetimes calls).countP fun life => life.waits && life.path.sameAs path := by
  -- The watches of the path that are open are the open watches that are of the path.
  calc ((after calls).fire path event).1
    _ = ((after calls).pending.filter (·.1.sameAs path)).countP
          fun entry => (after calls).isOpen entry.2 := List.countP_map
    _ = ((after calls).pending.filter fun entry => (after calls).isOpen entry.2).countP
          (·.1.sameAs path) := by
        rw [List.countP_filter, List.countP_filter]
        exact List.countP_congr fun _ _ => by rw [Bool.and_comm]
    _ = (((lifetimes calls).filter Lifetime.waits).map fun life =>
          (life.path, life.number)).countP (·.1.sameAs path) := by
        rw [(sound_after calls).pending]
    _ = (lifetimes calls).countP fun life => life.waits && life.path.sameAs path := by
        rw [List.countP_map, List.countP_filter]
        exact List.countP_congr fun _ _ => by rw [Bool.and_comm]; rfl

/-- A fire puts its event into the mailboxes of the watches that wait for its path, and of no
others. -/
theorem take_fire (calls : List Call) (path : Path) (event : WatchEvent) {life : Lifetime}
    (member : life ∈ lifetimes calls) :
    ((after (calls ++ [.fire path event])).take life.number).1 =
      if life.waits && life.path.sameAs path then some event
      else ((after calls).take life.number).1 := by
  have going : life.goOn (.fire path event) ∈ lifetimes (calls ++ [.fire path event]) := by
    rw [lifetimes_concat]
    exact List.mem_append_left _ (List.mem_map_of_mem member)
  have boxed : (after (calls ++ [.fire path event])).mailbox life.number =
      turn life.path life.number life.mailbox (.fire path event) :=
    ((sound_after _).mailboxes _ going).trans (Lifetime.mailbox_goOn _ life)
  rw [take_eq_held, take_eq_held, boxed, (sound_after calls).mailboxes life member, turn]
  by_cases told : life.mailbox = .waiting ∧ life.path.sameAs path
  · have reached : life.waits && life.path.sameAs path :=
      Bool.and_eq_true_iff.mpr ⟨life.mailbox_eq_waiting_iff.mp told.1, told.2⟩
    rw [if_pos told, if_pos reached]
    rfl
  · have missed : ¬(life.waits && life.path.sameAs path) = true := fun reached => told
      ((Bool.and_eq_true_iff.mp reached).imp_left life.mailbox_eq_waiting_iff.mpr)
    rw [if_neg told, if_neg missed]

/-- Whatever is done with the watches of a watcher: each watch hears of the first fire of its path
after it was made, unless it is closed before that or before it looks, and of nothing else; a fire
notifies as many watches as wait for its path, which are those that hold the event from then on; and
the watched paths are those of the watches that are neither fired nor closed, oldest first. -/
theorem watches_fire_once (calls : List Call) :
    (∀ before path later, calls = before ++ .watch path :: later →
      ⟨path, ((after before).watch path).1, later⟩ ∈ lifetimes calls) ∧
    (∀ life ∈ lifetimes calls,
      let heard := told life.number calls ++ ((after calls).take life.number).1.toList
      heard = life.due?.toList ∨ .close life.number ∈ life.later ∧ heard = []) ∧
    (∀ path event,
      ((after calls).fire path event).1 =
          (lifetimes calls).countP (fun life => life.waits && life.path.sameAs path) ∧
        ∀ life ∈ lifetimes calls, ((after (calls ++ [.fire path event])).take life.number).1 =
          if life.waits && life.path.sameAs path then some event
          else ((after calls).take life.number).1) ∧
    (after calls).watched.1 = ((lifetimes calls).filter Lifetime.waits).map Lifetime.path := by
  refine ⟨?_, ?_, ?_, ?_⟩
  · rintro before path later rfl
    have made := mem_lifetimesFrom 0 before path later
    rw [Nat.zero_add] at made
    have number : ((after before).watch path).1 = (lifetimesFrom 0 before).length :=
      (sound_after before).length_eq.symm
    rw [number]
    exact made
  · intro life member
    have answered := (answered_after calls life member).due
    rw [← (sound_after calls).mailboxes life member, ← take_eq_held] at answered
    exact answered
  · exact fun path event => ⟨fire_count calls path event, fun _ => take_fire calls path event⟩
  · have paths := congrArg (List.map Prod.fst) (sound_after calls).pending
    rw [List.map_map] at paths
    exact paths

/-- Two watches of one file, spelled differently, of which the first is closed, and one of another
file; the file is fired twice. -/
def lingering : List Call :=
  [.watch ⟨true, ["flow", "bin"]⟩, .watch ⟨true, ["flow", ".", "bin"]⟩, .close 0,
    .watch ⟨true, ["package.json"]⟩, .fire ⟨true, ["flow", "bin"]⟩ .changed, .take 1,
    .fire ⟨true, ["flow", "bin"]⟩ (.failed "gone")]

/-- The second watch hears of the first fire alone, and only the other file is still watched. -/
theorem watches_fire_once_lingering :
    told 1 lingering ++ ((after lingering).take 1).1.toList = [.changed] ∧
      ((after lingering).fire ⟨true, ["", "package.json"]⟩ .changed).1 = 1 ∧
      (after lingering).watched.1 = [⟨true, ["package.json"]⟩] := by
  obtain ⟨made, heard, fired, watched⟩ := watches_fire_once lingering
  have second := made [.watch ⟨true, ["flow", "bin"]⟩] _ _ rfl
  refine ⟨(heard _ second).resolve_right fun lost => ?_, ?_, ?_⟩
  · exact absurd lost.1 (by decide)
  · exact (fired ⟨true, ["", "package.json"]⟩ .changed).1.trans (by decide +kernel)
  · exact watched.trans (by decide +kernel)

end FlowService.ManualWatcher
