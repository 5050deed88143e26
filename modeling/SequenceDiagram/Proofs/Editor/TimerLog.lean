import Mathlib.Data.List.Induction
import SequenceDiagram.Editor.TimerLog
import SequenceDiagram.Proofs.Editor.Freshness

/-! A timer and its log. The deadline is all that a timer remembers, and it stands for
the last request of the log that is still being waited for. So what a look finds
follows from the log before it, whatever the times are, and as every request is waited
for once at most, the timer never goes off twice without being asked in between. -/
namespace SequenceDiagram

namespace QuietTimer

variable {t : QuietTimer} {log front back between : List Incident} {i j first second : Incident}
  {since now delay : Nat}

theorem takeDue_of_due (due : t.isDue now = true) : t.takeDue now = (true, t.cancel) := if_pos due

theorem takeDue_of_not_due (waits : t.isDue now = false) : t.takeDue now = (false, t) := by
  rw [takeDue, waits]
  rfl

theorem waits_nil : ¬Waits [] since := by
  rintro ⟨before, behind, cut, _⟩
  cases before <;> cases cut

/-- What is waited for at the end of a log is what its last entry asks for, or, after
a look in vain, what was waited for before it. -/
theorem waits_concat : Waits (log ++ [i]) since ↔
    i = .requested since ∨ (i.isRequest = false ∧ i ≠ .cancelled ∧ i.isRing = false) ∧ Waits log since := by
  constructor
  · rintro ⟨before, behind, cut, quiet⟩
    induction behind using List.reverseRecOn with
    | nil =>
      obtain ⟨_, same⟩ := List.append_inj' cut rfl
      exact .inl (List.singleton_inj.mp same)
    | append_singleton rest last =>
      rw [← List.cons_append, ← List.append_assoc] at cut
      obtain ⟨earlier, same⟩ := List.append_inj' cut rfl
      cases List.singleton_inj.mp same
      obtain ⟨quiet, vain⟩ := List.forall_mem_append.mp quiet
      exact .inr ⟨vain i List.mem_cons_self, before, rest, earlier, quiet⟩
  · rintro (rfl | ⟨vain, before, behind, rfl, quiet⟩)
    · exact ⟨log, [], rfl, List.forall_mem_nil _⟩
    · refine ⟨before, behind ++ [i], by simp, List.forall_mem_append.mpr ⟨quiet, ?_⟩⟩
      exact List.forall_mem_singleton.mpr vain

/-- What has gone off is over: anything waited for afterwards was asked for afterwards. -/
theorem waits_after_ring (ring : first.isRing = true) (waits : Waits (front ++ first :: back) since) :
    Waits back since := by
  induction back using List.reverseRecOn with
  | nil =>
    rcases waits_concat.mp waits with rfl | ⟨⟨_, _, vain⟩, _⟩
    · cases ring
    · exact absurd ring (by simp [vain])
  | append_singleton back last ih =>
    rw [← List.cons_append, ← List.append_assoc, waits_concat] at waits
    exact waits_concat.mpr (waits.imp_right fun both => ⟨both.1, ih both.2⟩)

theorem request_of_waits (waits : Waits log since) : ∃ i ∈ log, i.isRequest = true := by
  obtain ⟨before, behind, rfl, _⟩ := waits
  exact ⟨.requested since, by simp, rfl⟩

namespace Prompt

theorem nil : Prompt delay [] := by
  intro before now rang behind cut
  cases before <;> cases cut

/-- One more entry leaves a log prompt if it is not a look, or if it found what it had to. -/
theorem concat (prompt : Prompt delay log)
    (last : ∀ now rang, i = .looked now rang → (rang = true ↔ ∃ since, Waits log since ∧ since + delay ≤ now)) :
    Prompt delay (log ++ [i]) := by
  intro before now rang behind cut
  induction behind using List.reverseRecOn with
  | nil =>
    obtain ⟨rfl, same⟩ := List.append_inj' cut rfl
    exact last now rang (List.singleton_inj.mp same)
  | append_singleton rest j =>
    rw [← List.cons_append, ← List.append_assoc] at cut
    exact prompt before now rang rest (List.append_inj' cut rfl).1

theorem dropLast (prompt : Prompt delay (log ++ [i])) : Prompt delay log := by
  intro before now rang behind cut
  exact prompt before now rang (behind ++ [i]) (by simp [cut])

/-- Between two times that the timer goes off it was asked again. -/
theorem request_between (prompt : Prompt delay (front ++ first :: between ++ second :: back))
    (ringFirst : first.isRing = true) (ringSecond : second.isRing = true) : ∃ i ∈ between, i.isRequest = true := by
  cases second with
  | requested | cancelled => cases ringSecond
  | looked now rang =>
    obtain ⟨since, waits, _⟩ := (prompt _ now rang back rfl).mp ringSecond
    exact request_of_waits (waits_after_ring ringFirst waits)

/-- The timer goes off once for a request at most, and not yet for one that is still
being waited for. -/
theorem rings_le_requests (prompt : Prompt delay log) :
    log.countP (·.isRing) ≤ log.countP (·.isRequest) ∧
      ∀ since, Waits log since → log.countP (·.isRing) < log.countP (·.isRequest) := by
  induction log using List.reverseRecOn with
  | nil => exact ⟨Nat.le_refl _, fun since waits => absurd waits waits_nil⟩
  | append_singleton log i ih =>
    obtain ⟨atMost, fewer⟩ := ih prompt.dropLast
    rw [List.countP_append, List.countP_append, List.countP_singleton, List.countP_singleton]
    cases i with
    | requested now => exact ⟨Nat.le_succ_of_le atMost, fun _ _ => Nat.lt_succ_of_le atMost⟩
    | cancelled =>
      refine ⟨atMost, fun since waits => ?_⟩
      rcases waits_concat.mp waits with asked | ⟨⟨_, kept, _⟩, _⟩
      · cases asked
      · exact absurd rfl kept
    | looked now rang =>
      cases rang with
      | true =>
        obtain ⟨since, waits, _⟩ := (prompt log now true [] rfl).mp rfl
        refine ⟨fewer since waits, fun since waits => ?_⟩
        exact absurd (waits_after_ring rfl waits) waits_nil
      | false =>
        refine ⟨atMost, fun since waits => ?_⟩
        rcases waits_concat.mp waits with asked | ⟨_, waits⟩
        · cases asked
        · exact fewer since waits

end Prompt

/-- A timer of a delay stands as a log tells. -/
structure Follows (delay : Nat) (t : QuietTimer) (log : List Incident) : Prop where
  same : t.delay = delay
  deadline : ∀ stop, t.deadline = some stop ↔ ∃ since, Waits log since ∧ since + delay = stop
  prompt : Prompt delay log

namespace Follows

/-- Where nothing is waited for, a timer without a deadline stands as the log tells. -/
theorem of_settled (same : t.delay = delay) (unset : t.deadline = none) (settled : ∀ since, ¬Waits log since)
    (prompt : Prompt delay log) : Follows delay t log := by
  refine ⟨same, fun stop => ?_, prompt⟩
  rw [unset]
  constructor
  · intro set
    cases set
  · rintro ⟨since, waits, _⟩
    exact absurd waits (settled since)

theorem fresh (delay : Nat) : Follows delay { delay } [] := of_settled rfl rfl (fun _ => waits_nil) .nil

variable (follows : Follows delay t log)
include follows

theorem isPending_iff : t.isPending = true ↔ ∃ since, Waits log since := by
  rw [isPending, Option.isSome_iff_exists]
  simp only [follows.deadline]
  constructor
  · rintro ⟨_, since, waits, _⟩
    exact ⟨since, waits⟩
  · rintro ⟨since, waits⟩
    exact ⟨_, since, waits, rfl⟩

theorem isDue_iff (now : Nat) : t.isDue now = true ↔ ∃ since, Waits log since ∧ since + delay ≤ now := by
  rw [isDue, Option.any_eq_true]
  constructor
  · rintro ⟨stop, set, elapsed⟩
    obtain ⟨since, waits, rfl⟩ := (follows.deadline stop).mp set
    exact ⟨since, waits, of_decide_eq_true elapsed⟩
  · rintro ⟨since, waits, elapsed⟩
    exact ⟨since + delay, (follows.deadline _).mpr ⟨since, waits, rfl⟩, decide_eq_true elapsed⟩

theorem takeDue_iff (now : Nat) :
    (t.takeDue now).1 = true ↔ ∃ since, Waits log since ∧ since + delay ≤ now := by
  rw [← follows.isDue_iff, takeDue]
  cases t.isDue now <;> rfl

theorem schedule (now : Nat) : Follows delay (t.schedule now) (log ++ [.requested now]) := by
  refine ⟨follows.same, fun stop => ?_, follows.prompt.concat fun _ _ look => by cases look⟩
  have asked (since : Nat) : Waits (log ++ [.requested now]) since ↔ now = since := by
    rw [waits_concat]
    simp [Incident.isRequest]
  simp [QuietTimer.schedule, asked, follows.same]

theorem cancel : Follows delay t.cancel (log ++ [.cancelled]) := by
  refine of_settled follows.same rfl (fun since waits => ?_) (follows.prompt.concat fun _ _ look => by cases look)
  rcases waits_concat.mp waits with asked | ⟨⟨_, kept, _⟩, _⟩
  · cases asked
  · exact kept rfl

theorem takeDue (now : Nat) : Follows delay (t.takeDue now).2 (log ++ [.looked now (t.takeDue now).1]) := by
  have found : Prompt delay (log ++ [.looked now (t.isDue now)]) := by
    refine follows.prompt.concat fun _ _ look => ?_
    cases look
    exact follows.isDue_iff now
  cases due : t.isDue now with
  | true =>
    rw [due] at found
    rw [takeDue_of_due due]
    exact of_settled follows.same rfl (fun since waits => waits_nil (waits_after_ring rfl waits)) found
  | false =>
    have same (since : Nat) : Waits (log ++ [.looked now false]) since ↔ Waits log since := by
      rw [waits_concat]
      simp [Incident.isRequest, Incident.isRing]
    rw [due] at found
    rw [takeDue_of_not_due due]
    refine ⟨follows.same, fun stop => ?_, found⟩
    simp only [same]
    exact follows.deadline stop

theorem after (c : Call) : Follows delay (t.after c) (log ++ [t.told c]) := by
  cases c with
  | schedule now => exact follows.schedule now
  | cancel => exact follows.cancel
  | look now => exact follows.takeDue now

theorem run (calls : List Call) : Follows delay (t.run calls) (log ++ t.log calls) := by
  induction calls generalizing t log with
  | nil => simpa [QuietTimer.log, QuietTimer.run] using follows
  | cons c calls ih =>
    have later := ih (follows.after c)
    rw [List.append_assoc, List.singleton_append] at later
    exact later

end Follows

end QuietTimer

open QuietTimer

namespace Preview

variable {p : Preview} {log : List Incident} {delay : Nat}

/-- A poll is a look at the timer, and draws if the timer goes off. -/
theorem poll_eq (p : Preview) (text : Text) (now : Nat) : p.poll text now =
    if (p.timer.takeDue now).1 then (true, ({ p with timer := p.timer.cancel } : Preview).refresh text)
    else (false, p) := by
  cases due : p.timer.isDue now with
  | true => rw [poll_of_due due, takeDue_of_due due, if_pos rfl]
  | false => rw [poll_of_not_due due, takeDue_of_not_due due, if_neg Bool.false_ne_true]

theorem timer_poll (p : Preview) (text : Text) (now : Nat) :
    (p.poll text now).2.timer = (p.timer.takeDue now).2 := by
  cases due : p.timer.isDue now with
  | true => rw [poll_of_due due, takeDue_of_due due, timer_refresh]
  | false => rw [poll_of_not_due due, takeDue_of_not_due due]

/-- Whatever is asked of a preview, its timer stands as the log tells. -/
theorem follows_after (follows : Follows delay p.timer log) (r : Request) :
    Follows delay (p.after r).timer (log ++ (p.told? r).toList) := by
  cases r with
  | resize width height now | schedule now => exact follows.schedule now
  | key k now =>
    simp only [after, told?, noteKey]
    cases k.isMuted with
    | true => simpa using follows
    | false => exact follows.schedule now
  | poll text now =>
    have answer : (p.poll text now).1 = (p.timer.takeDue now).1 := by
      rw [poll_eq]
      cases (p.timer.takeDue now).1 <;> rfl
    rw [after, told?, timer_poll, answer]
    exact follows.takeDue now
  | refresh text => simpa [after, told?, timer_refresh] using follows

theorem follows_run (follows : Follows delay p.timer log) (requests : List Request) :
    Follows delay (p.run requests).timer (log ++ p.log requests) := by
  induction requests generalizing p log with
  | nil => simpa [Preview.log, run] using follows
  | cons r requests ih =>
    have later := ih (follows_after follows r)
    rw [List.append_assoc] at later
    exact later

end Preview

/-- A timer goes off at exactly those looks that come a delay or more after the last
request, where nobody has given that request up and it has not gone off for it yet;
until then it is pending, with the request's deadline. So it is asked again between
any two times that it goes off, and goes off at most once for each request. A preview
draws at exactly such polls, where changes of the screen, keys that are not muted and
what asks for a drawing outright are the requests. -/
theorem goes_off_once_quiet (delay : Nat) (calls : List Call) :
    let t := QuietTimer.run { delay } calls
    let history := QuietTimer.log { delay } calls
    Prompt delay history ∧
    (∀ now, (t.takeDue now).1 = true ↔ ∃ since, Waits history since ∧ since + delay ≤ now) ∧
    (t.isPending = true ↔ ∃ since, Waits history since) ∧
    (∀ stop, t.deadline = some stop ↔ ∃ since, Waits history since ∧ since + delay = stop) ∧
    (∀ front first between second back, history = front ++ first :: between ++ second :: back →
      first.isRing = true → second.isRing = true → ∃ i ∈ between, i.isRequest = true) ∧
    history.countP (·.isRing) ≤ history.countP (·.isRequest) ∧
    ∀ width height requests,
      let p := (Preview.ofScreen width height).run requests
      let told := (Preview.ofScreen width height).log requests
      Prompt 250 told ∧ (p.timer.isPending = true ↔ ∃ since, Waits told since) ∧ ∀ text now,
        ((∃ since, Waits told since ∧ since + 250 ≤ now) →
          p.poll text now = (true, ({ p with timer := p.timer.cancel } : Preview).refresh text)) ∧
        ((¬∃ since, Waits told since ∧ since + 250 ≤ now) → p.poll text now = (false, p)) := by
  intro t history
  have follows : Follows delay t history := (Follows.fresh delay).run calls
  refine ⟨follows.prompt, follows.takeDue_iff, follows.isPending_iff, follows.deadline, ?_,
    follows.prompt.rings_le_requests.1, ?_⟩
  · intro front first between second back cut ringFirst ringSecond
    exact (cut ▸ follows.prompt).request_between ringFirst ringSecond
  · intro width height requests p told
    have follows : Follows 250 p.timer told :=
      @Preview.follows_run (Preview.ofScreen width height) [] 250 (.fresh 250) requests
    refine ⟨follows.prompt, follows.isPending_iff, fun text now => ⟨fun due => ?_, fun waits => ?_⟩⟩
    · rw [Preview.poll_eq, if_pos ((follows.takeDue_iff now).mpr due)]
    · rw [Preview.poll_eq, if_neg (mt (follows.takeDue_iff now).mp waits)]

/-- A muted key does not start the wait anew, and a change of the screen does. -/
theorem goes_off_once_quiet_key_then_resize :
    let p := (Preview.ofScreen 100 40).run [.key (.char 'x') 0, .resize 120 50 200, .key .left 300]
    p.poll ['A'] 449 = (false, p) ∧
      p.poll ['A'] 450 = (true, ({ p with timer := p.timer.cancel } : Preview).refresh ['A']) := by
  obtain ⟨_, _, _, _, _, _, previews⟩ := goes_off_once_quiet 250 []
  obtain ⟨_, _, polls⟩ := previews 100 40 [.key (.char 'x') 0, .resize 120 50 200, .key .left 300]
  have waits (since : Nat) : Waits ([.requested 0] ++ [.requested 200]) since ↔ 200 = since := by
    rw [waits_concat]
    simp [Incident.isRequest]
  refine ⟨(polls ['A'] 449).2 ?_, (polls ['A'] 450).1 ⟨200, (waits 200).mpr rfl, by decide⟩⟩
  rintro ⟨since, asked, elapsed⟩
  cases (waits since).mp asked
  exact absurd elapsed (by decide)

end SequenceDiagram
