import Fanout.Proofs.Live.Delivery
import Fanout.Proofs.Live.Settling

/-!
One turn of a reader: it goes on after it has looked at everything, or it ends for a reason and takes
the connection off the registry. Told to close, it may look at some items before; that makes a
difference only to the reason. Nothing else that befalls a connection makes its reader end, and only
the client gives it something to look at.
-/

namespace Fanout.Live

namespace Sink

variable (s : Sink)

theorem isWhole_beginClose : s.beginClose.isWhole = s.isWhole := by
  cases s with
  | probe p => rfl
  | link l =>
    rw [beginClose, Link.beginClose]
    split
    · rfl
    · exact isWhole_take (.link l) (.close none)

theorem isWhole_endClose : s.endClose.isWhole = s.isWhole := by
  cases s <;> rfl

theorem isWhole_mapProbe (g : Probe → Probe) : (s.mapProbe g).isWhole = s.isWhole := by
  cases s <;> rfl

/-- What does not cut the link leaves it whole or cut. -/
theorem isWhole_mapLink {g : Link → Link} (h : ∀ l, (g l).cut = l.cut) :
    (s.mapLink g).isWhole = s.isWhole := by
  cases s with
  | probe p => rfl
  | link l => simp [isWhole, mapLink, link?, h]

theorem isWhole_fresh : s.fresh.isWhole := by
  cases s <;> rfl

end Sink

theorem Inbound.readEnd?_ne_dropped (item : Inbound) : item.readEnd? ≠ some .dropped := by
  cases item <;> nofun

namespace Connection

variable {t : Tuning} {a : Act} {c d : Connection}

theorem isWhole_answer (item : Inbound) (c : Connection) :
    (c.answer item).sink.isWhole = c.sink.isWhole := by
  cases item with
  | ping b => exact c.sink.isWhole_mapLink (Link.cut_answerPing b)
  | close reason =>
    apply c.sink.isWhole_mapLink
    intro l
    cases hc : l.isClosing <;> simp [Link.peerClose, hc, Link.push]
  | _ => rfl

theorem answer_eq (c : Connection) (item : Inbound) :
    ∃ sink, sink.isWhole = c.sink.isWhole ∧ c.answer item = { c with sink := sink } := by
  refine ⟨(c.answer item).sink, c.isWhole_answer item, ?_⟩
  cases item <;> rfl

/-- Only on a link that was cut an answer cannot be written. -/
theorem isWhole_of_cannotAnswer (h : c.cannotAnswer) : c.sink.isWhole = false := by
  unfold cannotAnswer at h
  cases hs : c.sink with
  | probe p => simp [hs, Sink.link?] at h
  | link l =>
    have cut : l.cut := by
      simp only [hs, Sink.link?, Option.any_some, Link.isBroken, Bool.and_eq_true] at h
      exact h.1
    simp [Sink.isWhole, Sink.link?, cut]

/-- Why a reader with these items before it ends: the connection was told to close, an item ends
reading, or the link was cut. -/
inductive EndsFor (c : Connection) (items : List Inbound) : ReadEnd → Prop where
  | dropped (hs : c.signalled) : EndsFor c items .dropped
  | item {reason : ReadEnd} (item : Inbound) (hi : item ∈ items) (hr : item.readEnd? = some reason) :
      EndsFor c items reason
  | cut (hl : c.sink.isWhole = false) : EndsFor c items .readError

/-- What ends a reader after it has looked at the first item ends it before. -/
theorem EndsFor.cons {sink : Sink} {item : Inbound} {rest : List Inbound} {reason : ReadEnd}
    (whole : sink.isWhole = c.sink.isWhole) (h : EndsFor { c with sink := sink } rest reason) :
    EndsFor c (item :: rest) reason := by
  cases h with
  | dropped hs => exact .dropped hs
  | item other hi hr => exact .item other (List.mem_cons_of_mem item hi) hr
  | cut hl => exact .cut (whole ▸ hl)

/-- One turn of a reader. -/
inductive Reads (c : Connection) : Connection → Prop where
  | idle (hn : c.watch = none ∨ c.readEnd?.isSome) : Reads c c
  | goOn (w : Watch) (sink : Sink) (hw : c.watch = some w) (he : w.ended = none)
      (hs : c.signalled = false) (hi : ∀ item ∈ w.inbound, item.readEnd? = none)
      (hl : sink.isWhole = c.sink.isWhole) :
      Reads c { c with sink := sink, watch := some { w with inbound := [] } }
  | stop (w : Watch) (sink : Sink) (rest : List Inbound) (reason : ReadEnd)
      (hw : c.watch = some w) (he : w.ended = none) (hr : EndsFor c w.inbound reason)
      (hl : sink.isWhole = c.sink.isWhole) :
      Reads c (stopReading { w with inbound := rest } reason { c with sink := sink })

/-- The reader's work on so many items at the most, unless one of them ends reading, and what comes
after it. -/
def readUntil (w : Watch) (next : List Inbound → Connection → Connection) :
    Nat → List Inbound → Connection → Connection
  | n + 1, item :: rest, c =>
    if c.cannotAnswer then c.stopReading { w with inbound := item :: rest } .readError
    else
      match item.readEnd? with
      | some reason => (c.answer item).stopReading { w with inbound := rest } reason
      | none => readUntil w next n rest (c.answer item)
  | _, items, c => next items c

theorem readItems_eq (w : Watch) (items : List Inbound) (c : Connection) :
    readItems w items c =
      readUntil w (fun rest c => { c with watch := some { w with inbound := rest } }) items.length
        items c := by
  induction items generalizing c with
  | nil => rfl
  | cons item rest ih =>
    rw [readItems, List.length_cons, readUntil]
    cases item.readEnd? with
    | none => rw [ih (c.answer item)]
    | some reason => rfl

/-- The reader comes to the end of the items that it looks at, or it ends. -/
theorem readUntil_cases (w : Watch) (next : List Inbound → Connection → Connection) (n : Nat)
    (items : List Inbound) (c : Connection) :
    ∃ sink, sink.isWhole = c.sink.isWhole ∧
      ((∀ item ∈ items.take n, item.readEnd? = none) ∧
          readUntil w next n items c = next (items.drop n) { c with sink := sink } ∨
        ∃ rest reason, EndsFor c items reason ∧
          readUntil w next n items c =
            stopReading { w with inbound := rest } reason { c with sink := sink }) := by
  induction n generalizing items c with
  | zero => exact ⟨c.sink, rfl, .inl ⟨nofun, rfl⟩⟩
  | succ n ih =>
    cases items with
    | nil => exact ⟨c.sink, rfl, .inl ⟨nofun, rfl⟩⟩
    | cons item rest =>
      obtain ⟨sink, whole, answer⟩ := c.answer_eq item
      rw [readUntil]
      split
      · next broken =>
        exact ⟨c.sink, rfl, .inr ⟨_, _, .cut (isWhole_of_cannotAnswer broken), rfl⟩⟩
      · split
        · next reason ends =>
          rw [answer]
          exact ⟨sink, whole, .inr ⟨rest, reason, .item item List.mem_cons_self ends, rfl⟩⟩
        · next goes =>
          obtain ⟨sink', whole', outcome⟩ := ih rest (c.answer item)
          rw [answer] at whole' outcome ⊢
          refine ⟨sink', whole'.trans whole, ?_⟩
          rcases outcome with ⟨quiet, same⟩ | ⟨rest', reason, why, same⟩
          · exact .inl ⟨List.forall_mem_cons.mpr ⟨goes, quiet⟩, same⟩
          · exact .inr ⟨rest', reason, why.cons whole, same⟩

theorem reads (c : Connection) : Reads c c.read := by
  rw [read]
  cases hw : c.watch with
  | none => exact .idle (.inl hw)
  | some w =>
    have ended : c.readEnd? = w.ended := by rw [readEnd?, hw, Option.bind_some]
    simp only
    split
    · next he => exact .idle (.inr (by rwa [ended]))
    · next he =>
      rw [Option.not_isSome_iff_eq_none] at he
      split
      · next hs => exact .stop w c.sink w.inbound .dropped hw he (.dropped hs) rfl
      · next hs =>
        rw [Bool.not_eq_true] at hs
        rw [readItems_eq]
        obtain ⟨sink, whole, ⟨quiet, same⟩ | ⟨rest, reason, why, same⟩⟩ :=
          readUntil_cases w _ w.inbound.length w.inbound c
        · rw [List.take_length] at quiet
          rw [same, List.drop_length]
          exact .goOn w sink hw he hs quiet whole
        · rw [same]
          exact .stop w sink rest reason hw he why whole

/-! ### In whichever order -/

/-- A turn of a reader that looks at so many items before it looks at the signal to close. -/
def readLate (n : Nat) (c : Connection) : Connection :=
  match c.watch with
  | none => c
  | some w =>
    if w.ended.isSome then c
    else if c.signalled then
      readUntil w (fun rest => stopReading { w with inbound := rest } .dropped) n w.inbound c
    else readItems w w.inbound c

/-- The reader is where it was, and the link is as whole as it was. -/
structure Undisturbed (c d : Connection) : Prop where
  watch : d.watch = c.watch
  whole : d.sink.isWhole = c.sink.isWhole

namespace Undisturbed

variable {e : Connection}

theorem refl (c : Connection) : Undisturbed c c := ⟨rfl, rfl⟩

theorem remove (c : Connection) : Undisturbed c c.remove where
  watch := c.watch_remove
  whole := by rw [sink_remove]

theorem enqueue (t : Tuning) (f : Frame) (c : Connection) : Undisturbed c (c.enqueue t f) := by
  obtain ⟨-, hd⟩ | ⟨-, e, hd⟩ := deliver_cases t.capacity f c
  · simp only [Connection.enqueue, hd]
    exact ⟨rfl, rfl⟩
  · simp only [Connection.enqueue, hd]
    exact refl c

theorem offer (t : Tuning) (body : Octets) (tag : Tenant) (c : Connection) :
    Undisturbed c (c.offer t body tag) := by
  rw [Connection.offer]
  split
  · obtain ⟨-, hd⟩ | ⟨-, e, hd⟩ := deliver_cases t.capacity (Frame.ofBody body) c
    · simp only [receive, hd]
      exact ⟨rfl, rfl⟩
    · simp only [receive, hd]
      exact remove c
  · exact refl c

theorem stride {timeout now : Nat} (h : Strides timeout now c d) : Undisturbed c d where
  watch := h.watch
  whole := by
    cases h with
    | take f e hw hr => exact c.sink.isWhole_take f
    | bid e hw hr => exact c.sink.isWhole_take _
    | fail f taken e hw ha => exact c.sink.isWhole_beginClose
    | leave taken e hw => exact c.sink.isWhole_beginClose
    | finish sink ending e hw hs =>
      rw [sink_finish]
      rcases hs with rfl | rfl
      · rfl
      · exact c.sink.isWhole_endClose
    | begin f rest hw hs hq => rfl
    | send f e hw hf => rfl
    | heed hw hs => rfl

end Undisturbed

/-- An act is the reader's turn, an item from the client, or the client's cut, or it has nothing to do
with the reader. -/
theorem act_cases (t : Tuning) (a : Act) (c : Connection) :
    a = .read ∨ (∃ item, a = .receive item) ∨ a = .cut ∨
      a ≠ .read ∧ (∀ item, a ≠ .receive item) ∧ Undisturbed c (c.act t a) := by
  have aside {a : Act} (hr : a ≠ .read) (hi : ∀ item, a ≠ .receive item)
      (h : Undisturbed c (c.act t a)) : a = .read ∨ (∃ item, a = .receive item) ∨ a = .cut ∨
        a ≠ .read ∧ (∀ item, a ≠ .receive item) ∧ Undisturbed c (c.act t a) :=
    .inr (.inr (.inr ⟨hr, hi, h⟩))
  cases a with
  | read => exact .inl rfl
  | receive item => exact .inr (.inl ⟨item, rfl⟩)
  | cut => exact .inr (.inr (.inl rfl))
  | deliver f => exact aside (by simp) (by simp) (.enqueue t f c)
  | broadcast body tag => exact aside (by simp) (by simp) (.offer t body tag c)
  | hand b body =>
    refine aside (by simp) (by simp) ?_
    rw [act, hand]
    split
    · exact .refl c
    · exact .offer t body _ c
  | remove => exact aside (by simp) (by simp) (.remove c)
  | write now =>
    refine aside (by simp) (by simp) ?_
    obtain ⟨-, same⟩ | strides := c.write_cases t now
    · rw [act, same]
      exact .refl c
    · exact .stride strides
  | behave q => exact aside (by simp) (by simp) ⟨rfl, c.sink.isWhole_mapProbe _⟩
  | fetch => exact aside (by simp) (by simp) ⟨rfl, c.sink.isWhole_mapLink fun l => rfl⟩

theorem readEnd?_hear (item : Inbound) (c : Connection) : (c.hear item).readEnd? = c.readEnd? := by
  cases hw : c.watch <;> simp [hear, readEnd?, hw]

/-- A reader ends at its own turn alone. -/
theorem readEnd?_act {t : Tuning} {a : Act} (hr : a ≠ .read) (c : Connection) :
    (c.act t a).readEnd? = c.readEnd? := by
  obtain rfl | ⟨item, rfl⟩ | rfl | ⟨-, -, aside⟩ := act_cases t a c
  · exact absurd rfl hr
  · exact c.readEnd?_hear item
  · rfl
  · rw [readEnd?, aside.watch, readEnd?]

/-! ### How a reader ends -/

theorem readEnd?_of_watch {w : Watch} (hw : c.watch = some w) : c.readEnd? = w.ended := by
  rw [readEnd?, hw, Option.bind_some]

theorem watch_stopReading (w : Watch) (reason : ReadEnd) (c : Connection) :
    (c.stopReading w reason).watch =
      some { w with ended := some reason, attempt := w.attempt.moveThrough [.closing, .closed] } := by
  rw [stopReading, watch_remove]

theorem readEnd?_stopReading (w : Watch) (reason : ReadEnd) (c : Connection) :
    (c.stopReading w reason).readEnd? = some reason := by
  rw [readEnd?_of_watch (c.watch_stopReading w reason)]

/-- A reader that has ended stays so, and for the same reason. -/
theorem readEnd?_act_of_eq_some {reason : ReadEnd} (h : c.readEnd? = some reason) (a : Act) :
    (c.act t a).readEnd? = some reason := by
  by_cases hr : a = .read
  · subst hr
    show c.read.readEnd? = some reason
    have reads := c.reads
    generalize c.read = d at reads
    cases reads with
    | idle hn => exact h
    | goOn w sink hw he hs hi hl =>
      rw [readEnd?_of_watch hw, he] at h
      cases h
    | stop w sink rest reason hw he hr hl =>
      rw [readEnd?_of_watch hw, he] at h
      cases h
  · rw [readEnd?_act hr, h]

theorem readEnd?_eq_none_of_act (h : (c.act t a).readEnd? = none) : c.readEnd? = none := by
  cases before : c.readEnd? with
  | none => rfl
  | some reason =>
    rw [readEnd?_act_of_eq_some before a] at h
    cases h

/-- A reader that ends has a reason to. -/
theorem endsFor_of_act (hn : c.readEnd? = none) {reason : ReadEnd}
    (h : (c.act t a).readEnd? = some reason) :
    a = .read ∧ ∃ w, c.watch = some w ∧ w.ended = none ∧ EndsFor c w.inbound reason := by
  by_cases turn : a = .read
  · subst turn
    refine ⟨rfl, ?_⟩
    change c.read.readEnd? = some reason at h
    have reads := c.reads
    generalize c.read = d at reads h
    cases reads with
    | idle =>
      rw [hn] at h
      cases h
    | goOn w sink hw he =>
      have on : w.ended = some reason := h
      rw [he] at on
      cases on
    | stop w sink rest reason' hw he hr =>
      rw [readEnd?_stopReading] at h
      obtain rfl := Option.some.inj h
      exact ⟨w, hw, he, hr⟩
  · rw [readEnd?_act turn, hn] at h
    cases h

end Connection

namespace Service

end Service

end Fanout.Live
