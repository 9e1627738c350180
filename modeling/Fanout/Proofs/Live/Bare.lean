import Fanout.Proofs.Live.Run

/-!
A connection apart from how its attempt is numbered. The numbers go into the log and nowhere else, so
whatever befalls a connection, its bare form tells what becomes of it.
-/

namespace Fanout

/-- The attempt apart from how it is numbered. -/
def Attempt.bare (a : Attempt) : Attempt := { a with number := 0, session := none }

theorem Attempt.bare_moveThrough (a : Attempt) (phases : List Phase) :
    (a.moveThrough phases).bare = a.bare.moveThrough phases := by
  induction phases generalizing a with
  | nil => rfl
  | cons p rest ih =>
    have first : (a.moveTo p).2.bare = (a.bare.moveTo p).2 := by
      by_cases hp : a.phase.precedes p <;> simp [moveTo, bare, hp]
    calc ((a.moveTo p).2.moveThrough rest).bare
      _ = (a.moveTo p).2.bare.moveThrough rest := ih _
      _ = (a.bare.moveTo p).2.moveThrough rest := by rw [first]

namespace Live

def Watch.bare (w : Watch) : Watch := { w with attempt := w.attempt.bare }

namespace Connection

/-- The connection apart from how its attempt is numbered. -/
def bare (c : Connection) : Connection := { c with watch := c.watch.map Watch.bare }

variable (c : Connection)

theorem bare_remove : c.remove.bare = c.bare.remove := by
  unfold remove
  show (if c.registered then { c.signalClose with registered := false } else c).bare =
    if c.registered then _ else _
  split <;> rfl

theorem deliver_bare (capacity : Nat) (f : Frame) :
    c.bare.deliver capacity f = (c.deliver capacity f).map bare := by
  unfold deliver
  show (if c.stage ≠ .active then _ else if capacity ≤ c.queue.length then _ else _) = _
  split
  · rfl
  · split <;> rfl

theorem bare_enqueue (t : Tuning) (f : Frame) : (c.enqueue t f).bare = c.bare.enqueue t f := by
  unfold enqueue
  rw [deliver_bare]
  cases c.deliver t.capacity f <;> rfl

theorem bare_offer (t : Tuning) (body : Octets) (tag : Tenant) :
    (c.offer t body tag).bare = c.bare.offer t body tag := by
  have received (f : Frame) : (c.receive t.capacity f).bare = c.bare.receive t.capacity f := by
    unfold receive
    rw [deliver_bare]
    cases c.deliver t.capacity f with
    | ok d => rfl
    | error e => exact c.bare_remove
  unfold offer
  show (if c.isTarget tag then _ else c).bare = if c.isTarget tag then _ else _
  split
  · exact received _
  · rfl

theorem bare_hand (t : Tuning) (b : Bridge) (body : Octets) :
    (c.hand t b body).bare = c.bare.hand t b body := by
  unfold hand
  cases b.audience? body with
  | none => rfl
  | some tag => exact c.bare_offer t body tag

theorem bare_finish (ending : Ending) : (c.finish ending).bare = c.bare.finish ending := by
  cases ending with
  | asked => rfl
  | failed => exact bare_remove _

theorem step?_bare (timeout now : Nat) :
    c.bare.step? timeout now = (c.step? timeout now).map bare := by
  rcases hw : c.writer with _ | ⟨f, _ | _, d⟩ | ⟨_ | _, d⟩ | ⟨ending, d⟩ | ending
  · have hb : c.bare.writer = .idle := hw
    have hs : c.bare.signalled = c.signalled := rfl
    have hq : c.bare.queue = c.queue := rfl
    rw [step?_idle hb, step?_idle hw, hs, hq]
    split
    · rfl
    · cases c.queue <;> rfl
  · have hb : c.bare.writer = .sending f false d := hw
    have hs : c.bare.sink = c.sink := rfl
    simp only [step?, hb, hw, hs]
    cases c.sink.ready.until d now <;> rfl
  · have hb : c.bare.writer = .sending f true d := hw
    have hs : c.bare.sink = c.sink := rfl
    simp only [step?, hb, hw, hs]
    cases c.sink.flush.until d now <;> rfl
  · have hb : c.bare.writer = .farewell false d := hw
    have hs : c.bare.sink = c.sink := rfl
    simp only [step?, hb, hw, hs]
    cases c.sink.ready.until d now <;> rfl
  · have hb : c.bare.writer = .farewell true d := hw
    have hs : c.bare.sink = c.sink := rfl
    simp only [step?, hb, hw, hs]
    cases c.sink.flush.until d now <;> rfl
  · have hb : c.bare.writer = .closing ending d := hw
    have hs : c.bare.sink = c.sink := rfl
    simp only [step?, hb, hw, hs]
    cases c.sink.close with
    | ready => exact congrArg some (bare_finish { c with sink := c.sink.endClose } ending).symm
    | failed => exact congrArg some (bare_finish { c with sink := c.sink.endClose } ending).symm
    | pending =>
      by_cases h : d ≤ now
      · simp [h, bare_finish]
      · simp [h]
  · have hb : c.bare.writer = .finished ending := hw
    simp only [step?, hb, hw]
    rfl

theorem bare_write (t : Tuning) (now : Nat) : (c.write t now).bare = c.bare.write t now := by
  unfold write
  rw [step?_bare]
  cases c.step? t.writeTimeout now <;> rfl

theorem bare_stopReading (w : Watch) (reason : ReadEnd) :
    (c.stopReading w reason).bare = c.bare.stopReading w.bare reason := by
  unfold stopReading
  rw [bare_remove]
  simp only [bare, Option.map_some, Watch.bare, Attempt.bare_moveThrough]

theorem bare_answer (item : Inbound) : (c.answer item).bare = c.bare.answer item := by
  cases item <;> rfl

theorem bare_readItems (w : Watch) (l : List Inbound) :
    (c.readItems w l).bare = c.bare.readItems w.bare l := by
  induction l generalizing c with
  | nil => rfl
  | cons item rest ih =>
    have hb : c.bare.cannotAnswer = c.cannotAnswer := rfl
    simp only [readItems, hb]
    split
    · exact c.bare_stopReading _ _
    · cases item.readEnd? with
      | none => exact (ih _).trans (by rw [bare_answer])
      | some reason => exact (bare_stopReading _ _ _).trans (by rw [bare_answer]; rfl)

theorem bare_read : c.read.bare = c.bare.read := by
  unfold read
  cases hw : c.watch with
  | none =>
    have hb : c.bare.watch = none := by simp [bare, hw]
    simp only [hb]
  | some w =>
    have hb : c.bare.watch = some w.bare := by simp [bare, hw]
    have hs : c.bare.signalled = c.signalled := rfl
    have he : w.bare.ended = w.ended := rfl
    simp only [hb, hs, he]
    split
    · rfl
    · split
      · exact c.bare_stopReading _ _
      · exact c.bare_readItems _ _

theorem bare_hear (item : Inbound) : (c.hear item).bare = c.bare.hear item := by
  unfold hear bare
  cases c.watch <;> rfl

@[simp] theorem readEnd?_bare : c.bare.readEnd? = c.readEnd? := by
  unfold readEnd? bare
  cases c.watch <;> rfl

theorem bare_fetch : c.fetch.bare = c.bare.fetch := by
  have once (l : Link) : Service.readOnce c.bare l = Service.readOnce c l := by
    have gone : c.bare.isGone = c.isGone := by rw [isGone, readEnd?_bare]; rfl
    rw [Service.readOnce, gone]
    rfl
  unfold fetch
  simp only [once]
  rfl

/-- How an attempt is numbered has no consequences. -/
theorem bare_act (t : Tuning) (a : Act) : (c.act t a).bare = c.bare.act t a := by
  cases a with
  | deliver f => exact c.bare_enqueue t f
  | broadcast body tag => exact c.bare_offer t body tag
  | hand b body => exact c.bare_hand t b body
  | remove => exact c.bare_remove
  | write now => exact c.bare_write t now
  | read => exact c.bare_read
  | receive item => exact c.bare_hear item
  | fetch => exact c.bare_fetch
  | behave p => rfl
  | cut => rfl

theorem bare_acts (t : Tuning) (l : List Act) : (c.acts t l).bare = c.bare.acts t l := by
  induction l generalizing c with
  | nil => rfl
  | cons a rest ih => exact (ih (c.act t a)).trans (by rw [bare_act]; rfl)

theorem bare_drive (t : Tuning) (now : Nat) :
    (c.drive t.writeTimeout now).bare = c.bare.drive t.writeTimeout now := by
  rw [drive_eq_acts, drive_eq_acts, bare_acts]
  rfl

end Connection

end Live

end Fanout
