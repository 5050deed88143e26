import SequenceDiagram.Editor.History
import SequenceDiagram.Proofs.Editor.Typing

/-! No edit is lost. Every event leaves the preview as the drafts made so far have
left it, and behind the present text only while a deadline is pending. The first
draft is made at the start; a change of the text or of the screen sets a deadline,
and what takes the deadline away draws what is there to draw by then. -/
namespace SequenceDiagram

variable {p : Preview} {s : Session} {history : List Draft} {text : Text} {now : Nat}

namespace Preview

theorem page_refresh (p : Preview) (text : Text) : (p.refresh text).page = p.page := by
  rw [refresh]
  split <;> rfl

theorem screen_refresh (p : Preview) (text : Text) :
    (p.refresh text).screenWidth = p.screenWidth ∧ (p.refresh text).screenHeight = p.screenHeight := by
  rw [refresh]
  split <;> exact ⟨rfl, rfl⟩

theorem timer_refresh (p : Preview) (text : Text) : (p.refresh text).timer = p.timer := by
  rw [refresh]
  split <;> rfl

theorem poll_of_due (due : p.timer.isDue now = true) :
    p.poll text now = (true, ({ p with timer := p.timer.cancel } : Preview).refresh text) := by
  simp only [poll, QuietTimer.takeDue, due, if_true]

theorem poll_of_not_due (waits : p.timer.isDue now = false) : p.poll text now = (false, p) := by
  simp only [poll, QuietTimer.takeDue, waits, Bool.false_eq_true, if_false]

/-- The preview as these drafts have left it, on the page that fits its screen:
the last picture among them, and the notice of the last one. -/
structure Shows (p : Preview) (history : List Draft) : Prop where
  style : p.style = {}
  delay : p.timer.delay = ({} : QuietTimer).delay
  page : p.page = (ofScreen p.screenWidth p.screenHeight).page
  picture : p.picture = (history.filterMap Draft.picture?).getLast?
  notice : p.notice = history.getLast?.bind Draft.notice?

theorem blank_shows (width height : Nat) : (ofScreen width height).Shows [] := ⟨rfl, rfl, rfl, rfl, rfl⟩

namespace Shows

variable (shown : p.Shows history)
include shown

theorem draw_eq (text : Text) : p.draw text = (Draft.mk p.page text).result := by
  rw [draw, Draft.result, shown.style]

/-- Drawing is one more draft. If it fails, the picture before it stays. -/
theorem refresh (text : Text) : (p.refresh text).Shows (history ++ [⟨p.page, text⟩]) := by
  have drawn := shown.draw_eq text
  cases result : (Draft.mk p.page text).result with
  | ok drawing =>
    have refreshed : p.refresh text = { p with
        notice := drawing.warnings.getLast?.map (·.message.toList), picture := some drawing.text } := by
      rw [Preview.refresh, drawn, result]
    rw [refreshed]
    refine ⟨shown.style, shown.delay, shown.page, ?_, ?_⟩
    · simp [Draft.picture?, result]
    · simp [Draft.notice?, result]
  | error error =>
    have refreshed : p.refresh text = { p with notice := some error.message.toList } := by
      rw [Preview.refresh, drawn, result]
    rw [refreshed]
    refine ⟨shown.style, shown.delay, shown.page, ?_, ?_⟩
    · simp [Draft.picture?, result, shown.picture]
    · simp [Draft.notice?, result]

theorem schedule (now : Nat) : (p.schedule now).Shows history :=
  ⟨shown.style, shown.delay, shown.page, shown.picture, shown.notice⟩

theorem resize (width height now : Nat) : (p.resize width height now).Shows history := by
  refine ⟨shown.style, shown.delay, ?_, shown.picture, shown.notice⟩
  simp only [Preview.resize, Preview.schedule, shown.page]
  rfl

theorem cancel : ({ p with timer := p.timer.cancel } : Preview).Shows history :=
  ⟨shown.style, shown.delay, shown.page, shown.picture, shown.notice⟩

end Shows

variable {q : Preview} {others : List Draft} {d : Draft}

/-- Nothing but the picture depends on more than the last draft and the screen. -/
theorem Shows.eq_but_picture (shown : p.Shows history) (other : q.Shows others)
    (screen : (p.screenWidth, p.screenHeight) = (q.screenWidth, q.screenHeight))
    (timer : p.timer.deadline = q.timer.deadline) (last : history.getLast? = others.getLast?) :
    p = { q with picture := p.picture } := by
  obtain ⟨width, height⟩ := Prod.mk.inj screen
  have page : p.page = q.page := by rw [shown.page, other.page, width, height]
  have style : p.style = q.style := shown.style.trans other.style.symm
  have delay : p.timer.delay = q.timer.delay := shown.delay.trans other.delay.symm
  have notice : p.notice = q.notice := by rw [shown.notice, other.notice, last]
  obtain ⟨_, _, _, _, ⟨_, _⟩, _, _⟩ := p
  simp only at width height page style delay timer notice
  subst width height page style delay timer notice
  rfl

/-- The last draft, where it has a picture, is the one that is shown. -/
theorem Shows.picture_of_last (shown : p.Shows history) (last : history.getLast? = some d)
    (drawn : d.picture?.isSome) : p.picture = d.picture? := by
  obtain ⟨earlier, rfl⟩ := List.getLast?_eq_some_iff.mp last
  obtain ⟨picture, drawn⟩ := Option.isSome_iff_exists.mp drawn
  rw [shown.picture, List.filterMap_append, List.filterMap_cons_some drawn, List.filterMap_nil,
    List.getLast?_concat, drawn]

end Preview

namespace Session

variable {e : Event}

/-- The preview shows what the drafts so far have left, and only a pending deadline
excuses the last of them from being of the present text on the present page. -/
structure Follows (s : Session) (history : List Draft) : Prop where
  shown : s.preview.Shows history
  current : s.preview.timer.isPending = false →
    history.getLast? = some ⟨s.preview.page, s.buffer.text⟩

theorem start_follows (text : Text) (width height : Nat) :
    (start text width height).Follows [firstDraft text width height] := by
  refine ⟨(Preview.blank_shows width height).refresh _, fun _ => ?_⟩
  rw [start, Preview.page_refresh]
  rfl

namespace Follows

variable (follows : s.Follows history)
include follows

/-- A key that changes the text sets a deadline; any other leaves the text alone. -/
theorem press (k : Key) (control : Bool) (now : Nat) : (s.press k control now).Follows history := by
  rw [Session.press]
  split
  · exact ⟨follows.shown, follows.current⟩
  · split
    · exact follows
    · cases changed : (s.buffer.press k).1 with
      | true =>
        simp only [changed, if_true, Preview.noteKey, Buffer.not_muted_of_changed changed]
        exact ⟨follows.shown.schedule now, fun idle => by cases idle⟩
      | false =>
        simp only [changed, Bool.false_eq_true, if_false]
        refine ⟨follows.shown, fun idle => ?_⟩
        rw [Buffer.text_press changed]
        exact follows.current idle

theorem resize (width height now : Nat) : (s.resize width height now).Follows history :=
  ⟨follows.shown.resize width height now, fun idle => by cases idle⟩

/-- A deadline is only ever taken away by drawing what is there. -/
theorem poll (now : Nat) :
    (s.poll now).2.Follows (history ++ (s.draft? (.poll now)).toList) := by
  cases due : s.preview.timer.isDue now with
  | true =>
    simp only [draft?, Session.poll, Preview.poll_of_due due, if_true, Option.toList_some]
    refine ⟨follows.shown.cancel.refresh s.buffer.text, fun _ => ?_⟩
    rw [List.getLast?_concat, Preview.page_refresh]
  | false =>
    simp only [draft?, Session.poll, Preview.poll_of_not_due due, Bool.false_eq_true, if_false,
      Option.toList_none, List.append_nil]
    exact ⟨follows.shown, follows.current⟩

theorem after (e : Event) : (s.after e).Follows (history ++ (s.draft? e).toList) := by
  cases e with
  | press k control now => simpa [draft?, Session.after] using follows.press k control now
  | resize width height now => simpa [draft?, Session.after] using follows.resize width height now
  | poll now => exact follows.poll now

theorem run (events : List Event) : (s.run events).Follows (history ++ s.drafts events) := by
  induction events generalizing s history with
  | nil => simpa [drafts, Session.run] using follows
  | cons e rest ih =>
    rw [drafts, ← List.append_assoc]
    exact ih (follows.after e)

end Follows

theorem screen_after (s : Session) (e : Event) :
    ((s.after e).preview.screenWidth, (s.after e).preview.screenHeight) =
      e.size?.getD (s.preview.screenWidth, s.preview.screenHeight) := by
  cases e with
  | press k control now =>
    simp only [Session.after, Session.press, Preview.noteKey]
    split
    · rfl
    · split
      · rfl
      · split
        · split <;> rfl
        · rfl
  | resize width height now => rfl
  | poll now =>
    cases due : s.preview.timer.isDue now with
    | true =>
      obtain ⟨width, height⟩ :=
        Preview.screen_refresh { s.preview with timer := s.preview.timer.cancel } s.buffer.text
      simp only [Session.after, Session.poll, Preview.poll_of_due due, width, height]
      rfl
    | false =>
      simp only [Session.after, Session.poll, Preview.poll_of_not_due due]
      rfl

/-- The size of the screen is the one that was told of last. -/
theorem screen_run (s : Session) (events : List Event) :
    ((s.run events).preview.screenWidth, (s.run events).preview.screenHeight) =
      (events.filterMap Event.size?).getLastD (s.preview.screenWidth, s.preview.screenHeight) := by
  induction events generalizing s with
  | nil => rfl
  | cons e rest ih =>
    have later : s.run (e :: rest) = (s.after e).run rest := rfl
    rw [later, ih, screen_after, List.filterMap_cons]
    cases told : e.size? with
    | none => rfl
    | some size => rw [List.getLastD_cons, Option.getD_some]

/-- Whatever the deadline, there is a time from which on a poll takes it away. -/
theorem poll_settles (s : Session) :
    ∃ late, ∀ now ≥ late, (s.poll now).2.preview.timer.isPending = false := by
  refine ⟨s.preview.timer.deadline.getD 0, fun now later => ?_⟩
  cases due : s.preview.timer.isDue now with
  | true =>
    rw [Session.poll, Preview.poll_of_due due]
    simp only [Preview.timer_refresh]
    rfl
  | false =>
    rw [Session.poll, Preview.poll_of_not_due due]
    cases set : s.preview.timer.deadline with
    | none => simp [QuietTimer.isPending, set]
    | some deadline =>
      simp only [QuietTimer.isDue, set, Option.any_some, decide_eq_false_iff_not] at due
      simp only [set, Option.getD_some] at later
      exact absurd later due

/-- Keys, changes of the screen and polls, in any order and at any times, lose no
edit: the picture is the last one that a draft gave, the notice is the one of the
last draft, and where no deadline is pending that draft was of the present text on
the page of the present screen, so the session shows what a new one would. A
pending deadline is taken away by any poll that comes late enough. -/
theorem no_edit_is_lost (text : Text) (width height : Nat) (events : List Event) :
    let first := start text width height
    let s := first.run events
    let history := firstDraft text width height :: first.drafts events
    let blank := Preview.ofScreen s.preview.screenWidth s.preview.screenHeight
    (s.preview.screenWidth, s.preview.screenHeight) = (events.filterMap Event.size?).getLastD (width, height) ∧
    s.preview.picture = (history.filterMap Draft.picture?).getLast? ∧
    s.preview.notice = history.getLast?.bind Draft.notice? ∧
    (s.preview.timer.isPending = false →
      history.getLast? = some ⟨blank.page, s.buffer.text⟩ ∧
      s.preview = { blank.refresh s.buffer.text with picture := s.preview.picture } ∧
      ((∃ drawing, blank.draw s.buffer.text = .ok drawing) → s.preview = blank.refresh s.buffer.text)) ∧
    ∃ late, ∀ now ≥ late, (s.poll now).2.preview.timer.isPending = false := by
  intro first s history blank
  have follows : s.Follows history := (start_follows text width height).run events
  have blankShows : blank.Shows [] := Preview.blank_shows _ _
  have fresh := blankShows.refresh s.buffer.text
  refine ⟨?_, follows.shown.picture, follows.shown.notice, fun idle => ?_, poll_settles s⟩
  · obtain ⟨startWidth, startHeight⟩ :=
      Preview.screen_refresh (Preview.ofScreen width height) (Buffer.ofText text).text
    have screen := screen_run first events
    simp only [first, start, startWidth, startHeight] at screen
    exact screen
  · have last : history.getLast? = some ⟨blank.page, s.buffer.text⟩ := by
      rw [follows.current idle, follows.shown.page]
    have unset : s.preview.timer.deadline = none := by simpa [QuietTimer.isPending] using idle
    obtain ⟨screenWidth, screenHeight⟩ := Preview.screen_refresh blank s.buffer.text
    have agrees : s.preview = { blank.refresh s.buffer.text with picture := s.preview.picture } := by
      refine follows.shown.eq_but_picture fresh ?_ ?_ (last.trans (by simp))
      · rw [screenWidth, screenHeight]
        rfl
      · rw [unset, Preview.timer_refresh]
        rfl
    refine ⟨last, agrees, ?_⟩
    rintro ⟨drawing, drawn⟩
    have visible : (Draft.mk blank.page s.buffer.text).picture?.isSome := by
      rw [blankShows.draw_eq] at drawn
      rw [Draft.picture?, drawn]
      rfl
    have freshPicture := fresh.picture_of_last (by simp) visible
    rw [agrees, follows.shown.picture_of_last last visible, ← freshPicture]

end Session

end SequenceDiagram
