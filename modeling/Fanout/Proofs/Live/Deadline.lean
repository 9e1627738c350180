import Fanout.Proofs.Live.Agreement
import Fanout.Proofs.Live.Wake

/-!
Whatever a writer waits for, it waits until a deadline, and the phases of a teardown come one after
another: the frame being sent, the farewell, the closing of the sink. So there is a time by which
each is over, if the clock does not leap over a deadline or leave a ready task behind.
-/

namespace Fanout.Live

/-- What is noted of a connection, and when: it begins to send a frame and has sent it, the sink is
told to close, and the connection leaves the registry. -/
inductive Milestone where
  | begun (time : Nat) (f : Frame)
  | sent (time : Nat) (f : Frame)
  | closes (time : Nat)
  | left (time : Nat)
deriving DecidableEq, Repr

def Milestone.isClosing : Milestone → Bool
  | closes _ => true
  | _ => false

namespace Writer

/-- What one action of a writer is noted as. -/
def milestones (now : Nat) : Writer → Writer → List Milestone
  | idle, sending f _ _ => [.begun now f]
  | sending f true _, idle => [.sent now f]
  | sending _ _ _, closing _ _ | farewell _ _, closing _ _ => [.closes now]
  | _, _ => []

@[simp] theorem milestones_self (now : Nat) (w : Writer) : w.milestones now w = [] := by
  rcases w with _ | ⟨f, _ | _, d⟩ | _ | _ | _ <;> rfl

theorem not_left_of_mem_milestones {now r : Nat} {w w' : Writer} :
    .left r ∉ w.milestones now w' := by
  unfold milestones
  split <;> simp

/-- The sink has been told to close. -/
def hasClosed : Writer → Bool
  | closing _ _ | finished _ => true
  | _ => false

/-- By when a writer that is told to close is finished at the latest. -/
def endsBy (timeout now : Nat) : Writer → Nat
  | idle => now + 2 * timeout
  | sending _ _ d => d + 2 * timeout
  | farewell _ d => d + timeout
  | closing _ d => d
  | finished _ => 0

/-- A send begun at a time is still on the way or has failed, with so much left of the teardown. -/
def Owes (timeout start : Nat) : Writer → Prop
  | sending _ _ d => d = start + timeout
  | closing .failed d => d ≤ start + 2 * timeout
  | finished .failed => True
  | _ => False

theorem endsBy_le {timeout now : Nat} {w : Writer}
    (h : ∀ d, w.deadline? = some d → d ≤ now + timeout) :
    w.endsBy timeout now ≤ now + 3 * timeout := by
  cases w <;> simp [endsBy, deadline?] at h ⊢ <;> omega

end Writer

namespace Connection

def milestones (t : Tuning) (now : Nat) (c : Connection) (a : Act) : List Milestone :=
  c.writer.milestones now (c.act t a).writer ++
    if c.registered && !(c.act t a).registered then [.left now] else []

end Connection

/-! ### Sends -/

/-- Each send that was begun was done within the timeout, or the writer owes it. -/
def Accounted (timeout : Nat) (g : List Milestone) (w : Writer) : Prop :=
  ∀ pre start f post, g = pre ++ .begun start f :: post →
    (∃ time f', .sent time f' ∈ post ∧ time ≤ start + timeout) ∨ w.Owes timeout start

theorem begun_append {g h pre post : List Milestone} {start : Nat} {f : Frame}
    (he : g ++ h = pre ++ .begun start f :: post) :
    .begun start f ∈ h ∨ ∃ post', g = pre ++ .begun start f :: post' ∧ post = post' ++ h := by
  rcases List.append_eq_append_iff.mp he with ⟨l, -, hl⟩ | ⟨l, hg, hl⟩
  · exact .inl (by simp [hl])
  · cases l with
    | nil =>
      rw [List.nil_append] at hl
      exact .inl (hl ▸ List.mem_cons_self)
    | cons m post' =>
      obtain ⟨rfl, rfl⟩ := List.cons.inj hl
      exact .inr ⟨post', hg, rfl⟩

theorem Accounted.append {timeout : Nat} {g h : List Milestone} {w w' : Writer}
    (ha : Accounted timeout g w)
    (owed : ∀ start, w.Owes timeout start →
      (∃ time f', .sent time f' ∈ h ∧ time ≤ start + timeout) ∨ w'.Owes timeout start)
    (begun : ∀ start f, .begun start f ∈ h → w'.Owes timeout start) :
    Accounted timeout (g ++ h) w' := by
  intro pre start f post he
  rcases begun_append he with hb | ⟨post', hg, rfl⟩
  · exact .inr (begun start f hb)
  · rcases ha pre start f post' hg with ⟨time, f', hm, ht⟩ | ho
    · exact .inl ⟨time, f', List.mem_append_left h hm, ht⟩
    · refine (owed start ho).imp_left ?_
      rintro ⟨time, f', hm, ht⟩
      exact ⟨time, f', List.mem_append_right post' hm, ht⟩

/-! ### The invariant -/

/-- What was noted of a connection and its deadlines fit together. -/
structure Timely (timeout now : Nat) (g : List Milestone) (c : Connection) : Prop where
  coherent : Coherent c
  ahead : ∀ d, c.writer.deadline? = some d → now ≤ d ∧ d ≤ now + timeout
  sends : Accounted timeout g c.writer
  closes : g.countP Milestone.isClosing = c.writer.hasClosed.toNat
  left : ∀ r, .left r ∈ g → c.registered = false ∧ c.writer.endsBy timeout now ≤ r + 3 * timeout
  leaves : c.registered = false → ∃ r ≤ now, .left r ∈ g

namespace Timely

variable {timeout now : Nat} {g : List Milestone} {c d : Connection}

theorem new (who : Bearer) (sink : Sink) (watch : Option Watch) :
    Timely timeout now [] { bearer := who, sink := sink.fresh, watch := watch } where
  coherent := .new who sink watch
  ahead := nofun
  sends := by simp [Accounted]
  closes := rfl
  left := nofun
  leaves := nofun

/-- What has to be seen to of an action. -/
theorem next (h : Timely timeout now g c) (coherent : Coherent d)
    (off : c.registered = false → d.registered = false)
    (ahead : ∀ e, d.writer.deadline? = some e → now ≤ e ∧ e ≤ now + timeout)
    (owed : ∀ start, c.writer.Owes timeout start →
      (∃ time f, .sent time f ∈ c.writer.milestones now d.writer ∧ time ≤ start + timeout) ∨
        d.writer.Owes timeout start)
    (begun : ∀ start f, .begun start f ∈ c.writer.milestones now d.writer →
      d.writer.Owes timeout start)
    (closes : (c.writer.milestones now d.writer).countP Milestone.isClosing +
      c.writer.hasClosed.toNat = d.writer.hasClosed.toNat)
    (ends : c.registered = false → d.writer.endsBy timeout now ≤ c.writer.endsBy timeout now) :
    Timely timeout now
      (g ++ (c.writer.milestones now d.writer ++
        if c.registered && !d.registered then [.left now] else [])) d := by
  have quiet (l : List Milestone) (hl : l = [] ∨ l = [.left now]) :
      l.countP Milestone.isClosing = 0 ∧ ∀ start f, .begun start f ∉ l := by
    rcases hl with rfl | rfl <;> simp [Milestone.isClosing]
  obtain ⟨hq, hn⟩ := quiet (if c.registered && !d.registered then [.left now] else [])
    (by split <;> simp)
  refine ⟨coherent, ahead, ?_, ?_, ?_, ?_⟩
  · refine h.sends.append ?_ ?_
    · intro start ho
      refine (owed start ho).imp_left ?_
      rintro ⟨time, f, hm, ht⟩
      exact ⟨time, f, List.mem_append_left _ hm, ht⟩
    · intro start f hb
      rcases List.mem_append.mp hb with hb | hb
      · exact begun start f hb
      · exact absurd hb (hn start f)
  · rw [List.countP_append, List.countP_append, hq, h.closes]
    omega
  · intro r hr
    rcases List.mem_append.mp hr with hr | hr
    · obtain ⟨hc, he⟩ := h.left r hr
      exact ⟨off hc, Nat.le_trans (ends hc) he⟩
    · rcases List.mem_append.mp hr with hr | hr
      · exact absurd hr Writer.not_left_of_mem_milestones
      · cases hd : d.registered <;> simp [hd] at hr
        obtain ⟨-, rfl⟩ := hr
        exact ⟨rfl, Writer.endsBy_le fun e he => (ahead e he).2⟩
  · intro hd
    cases hc : c.registered with
    | false =>
      obtain ⟨r, hr, hm⟩ := h.leaves hc
      exact ⟨r, hr, List.mem_append_left _ hm⟩
    | true => exact ⟨now, Nat.le_refl now, by simp [hd]⟩

/-- What leaves the writer alone. -/
theorem aside (h : Timely timeout now g c) (coherent : Coherent d)
    (off : c.registered = false → d.registered = false) (hw : d.writer = c.writer) :
    Timely timeout now
      (g ++ (c.writer.milestones now d.writer ++
        if c.registered && !d.registered then [.left now] else [])) d := by
  refine h.next coherent off (hw ▸ h.ahead) ?_ ?_ ?_ ?_
  · exact fun start ho => .inr (hw ▸ ho)
  · simp [hw]
  · simp [hw]
  · exact fun _ => Nat.le_of_eq (by rw [hw])

/-- Every action of the writer is in time. -/
theorem stride (h : Timely timeout now g c) (coherent : Coherent d)
    (off : c.registered = false → d.registered = false)
    (hs : Connection.Strides timeout now c d) :
    Timely timeout now
      (g ++ (c.writer.milestones now d.writer ++
        if c.registered && !d.registered then [.left now] else [])) d := by
  have ahead := h.ahead
  cases hs with
  | begin f rest hw hsig hq =>
    refine h.next coherent off ?_ ?_ ?_ ?_ ?_
    · simp [Writer.deadline?]
    · simp [hw, Writer.Owes]
    · simp [hw, Writer.milestones, Writer.Owes]
    · simp [hw, Writer.milestones, Writer.hasClosed, Milestone.isClosing]
    · intro hr
      have signalled := h.coherent.signalled
      simp [hr, hsig] at signalled
  | take f e hw hr =>
    rw [hw] at ahead
    refine h.next coherent off ahead ?_ ?_ ?_ ?_
    · exact fun start ho => .inr (by simpa [hw, Writer.Owes] using ho)
    · simp [hw, Writer.milestones]
    · simp [hw, Writer.milestones, Writer.hasClosed]
    · simp [hw, Writer.endsBy]
  | send f e hw hf =>
    have he := (ahead e (by simp [hw, Writer.deadline?])).1
    refine h.next coherent off ?_ ?_ ?_ ?_ ?_
    · simp [Writer.deadline?]
    · intro start ho
      have hd : e = start + timeout := by simpa [hw, Writer.Owes] using ho
      exact .inl ⟨now, f, by simp [hw, Writer.milestones], by omega⟩
    · simp [hw, Writer.milestones]
    · simp [hw, Writer.milestones, Writer.hasClosed, Milestone.isClosing]
    · simp only [hw, Writer.endsBy]
      omega
  | fail f taken e hw ha =>
    have he := (ahead e (by simp [hw, Writer.deadline?])).1
    refine h.next coherent off ?_ ?_ ?_ ?_ ?_
    · simp [Connection.startClosing, Writer.deadline?]
    · intro start ho
      have hd : e = start + timeout := by simpa [hw, Writer.Owes] using ho
      exact .inr (by simp only [Connection.startClosing, Writer.Owes]; omega)
    · simp [hw, Connection.startClosing, Writer.milestones]
    · simp [hw, Connection.startClosing, Writer.milestones, Writer.hasClosed, Milestone.isClosing]
    · simp only [hw, Connection.startClosing, Writer.endsBy]
      omega
  | heed hw hsig =>
    refine h.next coherent off ?_ ?_ ?_ ?_ ?_
    · simp [Writer.deadline?]
    · simp [hw, Writer.Owes]
    · simp [hw, Writer.milestones]
    · simp [hw, Writer.milestones, Writer.hasClosed]
    · simp only [hw, Writer.endsBy]
      omega
  | bid e hw hr =>
    rw [hw] at ahead
    refine h.next coherent off ahead ?_ ?_ ?_ ?_
    · simp [hw, Writer.Owes]
    · simp [hw, Writer.milestones]
    · simp [hw, Writer.milestones, Writer.hasClosed]
    · simp [hw, Writer.endsBy]
  | leave taken e hw =>
    have he := (ahead e (by simp [hw, Writer.deadline?])).1
    refine h.next coherent off ?_ ?_ ?_ ?_ ?_
    · simp [Connection.startClosing, Writer.deadline?]
    · simp [hw, Writer.Owes]
    · simp [hw, Connection.startClosing, Writer.milestones]
    · simp [hw, Connection.startClosing, Writer.milestones, Writer.hasClosed, Milestone.isClosing]
    · simp only [hw, Connection.startClosing, Writer.endsBy]
      omega
  | finish sink ending e hw hsink =>
    refine h.next coherent off ?_ ?_ ?_ ?_ ?_
    · simp [Writer.deadline?]
    · intro start ho
      cases ending with
      | asked => simp [hw, Writer.Owes] at ho
      | failed => exact .inr (by simp [Writer.Owes])
    · simp [hw, Writer.milestones]
    · simp [hw, Writer.milestones, Writer.hasClosed]
    · simp [Writer.endsBy]

theorem act {t : Tuning} (h : Timely t.writeTimeout now g c) {a : Act}
    (ha : ∀ x, a = .write x → x = now) :
    Timely t.writeTimeout now (g ++ c.milestones t now a) (c.act t a) := by
  have coherent : Coherent (c.act t a) := h.coherent.act t a
  have forward : Forward c (c.act t a) := .act t a c
  by_cases hw : ∃ x, a = .write x
  · obtain ⟨x, rfl⟩ := hw
    obtain rfl := ha x rfl
    rcases c.write_cases t x with ⟨-, hd⟩ | hs
    · exact h.aside coherent forward.left (congrArg Connection.writer hd)
    · exact h.stride coherent forward.left hs
  · exact h.aside coherent forward.left
      (Connection.writer_act (fun x hx => hw ⟨x, hx⟩) c)

/-- Time goes on. A writer that is told to close does not idle meanwhile. -/
theorem wait (h : Timely timeout now g c) {ms : Nat}
    (early : ∀ d, c.writer.deadline? = some d → now + ms ≤ d)
    (idle : c.writer = .idle → c.signalled = false) : Timely timeout (now + ms) g c where
  coherent := h.coherent
  ahead := by
    intro d hd
    have := h.ahead d hd
    exact ⟨early d hd, by omega⟩
  sends := h.sends
  closes := h.closes
  left := by
    intro r hr
    obtain ⟨hc, he⟩ := h.left r hr
    refine ⟨hc, ?_⟩
    cases hw : c.writer with
    | idle =>
      have signalled := h.coherent.signalled
      simp [hc, idle hw] at signalled
    | _ => rwa [hw] at he
  leaves := by
    intro hc
    obtain ⟨r, hr, hm⟩ := h.leaves hc
    exact ⟨r, by omega, hm⟩

end Timely

/-! ### At a settled point -/

namespace Connection.Waits

variable {timeout now start : Nat} {c : Connection}

theorem isFinished_of_owes (h : c.Waits now) (ho : c.writer.Owes timeout start)
    (hn : start + 2 * timeout ≤ now) : c.writer.isFinished := by
  have early := h.early
  rcases hw : c.writer with _ | ⟨f, taken, d⟩ | _ | ⟨_ | _, d⟩ | _ <;> rw [hw] at ho early
  · cases ho
  · have := early d rfl
    simp only [Writer.Owes] at ho
    omega
  · cases ho
  · cases ho
  · have := early d rfl
    simp only [Writer.Owes] at ho
    omega
  · rfl

theorem isFinished_of_endsBy (h : c.Waits now) (hs : c.signalled)
    (he : c.writer.endsBy timeout now ≤ now) : c.writer.isFinished := by
  have early := h.early
  cases hw : c.writer with
  | idle =>
    have resting := h.awaited
    simp [Connection.awaited, hw, hs] at resting
  | sending f taken d =>
    have := early d (by simp [hw, Writer.deadline?])
    simp only [hw, Writer.endsBy] at he
    omega
  | farewell taken d =>
    have := early d (by simp [hw, Writer.deadline?])
    simp only [hw, Writer.endsBy] at he
    omega
  | closing ending d =>
    have := early d (by simp [hw, Writer.deadline?])
    simp only [hw, Writer.endsBy] at he
    omega
  | finished ending => rfl

end Connection.Waits

/-! ### Runs -/

/-- The clock goes on only when nobody is ready, and not past a deadline. -/
def Service.Punctual (s : Service) : Move → Prop
  | .tick ms =>
    s.ready = [] ∧ ∀ c ∈ s.connections, ∀ d ∈ c.writer.deadline?, s.now + ms ≤ d
  | _ => True

instance (s : Service) (m : Move) : Decidable (s.Punctual m) :=
  match m with
  | .tick _ => inferInstanceAs (Decidable (_ ∧ _))
  | .register _ _ _ | .remove _ | .deliver _ _ | .broadcast _ _ | .hand _ _ | .play _ _
  | .spawn _ _ | .feed _ _ _ | .behave _ _ | .receive _ _ | .cutOff _ | .fetch _ | .turn _
  | .wake _ | .setStatus _ => inferInstanceAs (Decidable True)

namespace Timely

variable {s : Service} {i : Nat} {m : Move} {g : List Milestone} {c : Connection}

theorem perform (h : Timely s.tuning.writeTimeout s.now g c)
    (hc : s.connections[i]? = some c) (hw : s.Watched) (hp : s.Punctual m) :
    Timely s.tuning.writeTimeout (s.perform m).now
      (g ++ c.journal (Connection.milestones s.tuning s.now) s.tuning (s.acts i c m))
      (c.acts s.tuning (s.acts i c m)) := by
  by_cases hm : ∃ ms, m = .tick ms
  · obtain ⟨ms, rfl⟩ := hm
    have resting : c.awaited = .pending := (hw i c hc).resolve_left (by simp [hp.1])
    have waited : Timely s.tuning.writeTimeout (s.now + ms) g c := by
      refine h.wait (hp.2 c (List.mem_of_getElem? hc)) ?_
      intro hi
      cases hs : c.signalled with
      | false => rfl
      | true => simp [Connection.awaited, hi, hs] at resting
    simpa [Service.perform, Service.acts, Connection.journal, Connection.acts_nil] using waited
  · have same : (s.perform m).now = s.now := by
      rw [s.now_perform]
      cases m with
      | tick ms => exact absurd ⟨ms, rfl⟩ hm
      | _ => rfl
    rw [same]
    have inTime : ∀ a ∈ s.acts i c m, ∀ x, a = .write x → x = s.now := by
      rintro a ha x rfl
      exact (Service.of_write_mem_acts ha).2
    exact Service.acts_keep (fun g c a ha hl => hl.act ha) inTime h

/-- Every connection of a punctual run is in time. -/
theorem of_run {t : Tuning} {moves : List Move}
    (hm : (Service.start t).Meets Service.Punctual moves)
    (hc : ((Service.start t).after moves).connections[i]? = some c) :
    Timely t.writeTimeout ((Service.start t).after moves).now
      ((Service.start t).journal (Connection.milestones t) i moves) c := by
  refine Service.run_induct (L := fun s => Timely t.writeTimeout s.now) ?_ ?_
    ((hm.keeping (fun _ m hw => hw.perform m) (Service.watched_start t)).tuning rfl) rfl hc
  · intro s m c _ hn hb
    obtain ⟨who, sink, watch, rfl⟩ := Service.new_of_perform hn hb
    exact .new who sink watch
  · rintro s m g c ⟨rfl, hw, hp⟩ hc hl
    exact hl.perform hc hw hp

end Timely

end Fanout.Live
