import Fanout.Proofs.Live.Cleanup

/-!
What readers look at. Of the items of a client a reader looks at those up to the first one that ends
reading, and at none after it. It may be dropped before, and it may find that an answer can no longer
be written; otherwise it ends for the reason that this item gives.
-/

namespace Fanout.Live

/-- The item leaves the reader going. -/
def Inbound.isHarmless (item : Inbound) : Bool := item.readEnd?.isNone

theorem Inbound.isHarmless_iff {item : Inbound} : item.isHarmless ↔ item.readEnd? = none :=
  Option.isNone_iff_eq_none

/-- What a reader looked at before it came to where it is: only harmless items, unless the last one
ended it. It may also have been dropped, or its link cut, before there was one. -/
inductive Ate (c : Connection) : List Inbound → Option ReadEnd → Prop where
  | goesOn {eaten : List Inbound} (quiet : ∀ x ∈ eaten, x.isHarmless) : Ate c eaten none
  | item {before : List Inbound} {x : Inbound} {r : ReadEnd} (quiet : ∀ y ∈ before, y.isHarmless)
      (ends : x.readEnd? = some r) : Ate c (before ++ [x]) (some r)
  | dropped {eaten : List Inbound} (quiet : ∀ x ∈ eaten, x.isHarmless) (told : c.signalled) :
      Ate c eaten (some .dropped)
  | cut {eaten : List Inbound} (quiet : ∀ x ∈ eaten, x.isHarmless) (cut : c.sink.isWhole = false) :
      Ate c eaten (some .readError)

namespace Ate

variable {c d : Connection} {eaten : List Inbound} {ended : Option ReadEnd}

theorem quiet_of_none (h : Ate c eaten none) : ∀ x ∈ eaten, x.isHarmless := by
  cases h with
  | goesOn quiet => exact quiet

/-- Harmless items looked at before make no difference. -/
theorem append {before : List Inbound} (quiet : ∀ x ∈ before, x.isHarmless) (h : Ate c eaten ended) :
    Ate c (before ++ eaten) ended := by
  have both {l : List Inbound} (hl : ∀ x ∈ l, x.isHarmless) : ∀ x ∈ before ++ l, x.isHarmless :=
    fun x hx => (List.mem_append.mp hx).elim (quiet x) (hl x)
  cases h with
  | goesOn hl => exact .goesOn (both hl)
  | item hl ends =>
    rw [← List.append_assoc]
    exact .item (both hl) ends
  | dropped hl told => exact .dropped (both hl) told
  | cut hl cut => exact .cut (both hl) cut

/-- A connection that was told to close, or whose link was cut, stays so. -/
theorem mono (h : Ate c eaten ended) (told : c.signalled → d.signalled)
    (cut : c.sink.isWhole = false → d.sink.isWhole = false) : Ate d eaten ended := by
  cases h with
  | goesOn quiet => exact .goesOn quiet
  | item quiet ends => exact .item quiet ends
  | dropped quiet hs => exact .dropped quiet (told hs)
  | cut quiet hl => exact .cut quiet (cut hl)

/-- The reason to end is the first that the items give, as long as there is no other one. -/
theorem ended_eq (h : Ate c eaten ended) {left : List Inbound} (stays : ended ≠ some .dropped)
    (done : ended = none → ∀ x ∈ left, x.isHarmless) :
    ended = (eaten ++ left).findSome? Inbound.readEnd? ∨
      ended = some .readError ∧ c.sink.isWhole = false := by
  have silent {l : List Inbound} (quiet : ∀ x ∈ l, x.isHarmless) :
      l.findSome? Inbound.readEnd? = none :=
    List.findSome?_eq_none_iff.mpr fun x hx => Inbound.isHarmless_iff.mp (quiet x hx)
  cases h with
  | goesOn quiet => exact .inl (by simp [List.findSome?_append, silent quiet, silent (done rfl)])
  | item quiet ends => exact .inl (by simp [List.findSome?_append, silent quiet, ends])
  | dropped => exact absurd rfl stays
  | cut quiet cut => exact .inr ⟨rfl, cut⟩

end Ate

/-- A link that was cut is not whole again when it is cut once more. -/
theorem Sink.isWhole_cut (s : Sink) (h : s.isWhole = false) :
    (s.mapLink fun l => { l with cut := true }).isWhole = false := by
  cases s with
  | probe p => cases h
  | link l => rfl

namespace Connection

variable {c : Connection} {w : Watch}

/-- What the reader takes from the front of the items that it looks at. -/
theorem readUntil_eats (w : Watch) (next : List Inbound → Connection → Connection) (n : Nat)
    (items : List Inbound) (c : Connection) :
    ∃ sink, sink.isWhole = c.sink.isWhole ∧
      ((∀ x ∈ items.take n, x.isHarmless) ∧
          readUntil w next n items c = next (items.drop n) { c with sink := sink } ∨
        ∃ eaten rest reason, items = eaten ++ rest ∧ Ate c eaten (some reason) ∧
          readUntil w next n items c =
            stopReading { w with inbound := rest } reason { c with sink := sink }) := by
  induction n generalizing items c with
  | zero => exact ⟨c.sink, rfl, .inl ⟨by simp, rfl⟩⟩
  | succ n ih =>
    cases items with
    | nil => exact ⟨c.sink, rfl, .inl ⟨by simp, rfl⟩⟩
    | cons item rest =>
      obtain ⟨sink, whole, answer⟩ := c.answer_eq item
      rw [readUntil]
      split
      · next broken =>
        have cut : Ate c [] (some .readError) := .cut (by simp) (isWhole_of_cannotAnswer broken)
        exact ⟨c.sink, rfl, .inr ⟨[], _, _, rfl, cut, rfl⟩⟩
      · split
        · next reason ends =>
          rw [answer]
          have last : Ate c ([] ++ [item]) (some reason) := .item (by simp) ends
          exact ⟨sink, whole, .inr ⟨[item], rest, reason, rfl, last, rfl⟩⟩
        · next goes =>
          have harmless : item.isHarmless := Inbound.isHarmless_iff.mpr goes
          obtain ⟨sink', whole', outcome⟩ := ih rest (c.answer item)
          rw [answer] at whole' outcome ⊢
          refine ⟨sink', whole'.trans whole, ?_⟩
          rcases outcome with ⟨quiet, same⟩ | ⟨eaten, left, reason, parted, ate, same⟩
          · exact .inl ⟨List.forall_mem_cons.mpr ⟨harmless, quiet⟩, same⟩
          · have ate : Ate c eaten (some reason) := ate.mono id fun cut => whole ▸ cut
            have ate : Ate c ([item] ++ eaten) (some reason) :=
              ate.append fun x hx => List.mem_singleton.mp hx ▸ harmless
            exact .inr ⟨_, left, reason, by rw [parted]; rfl, ate, same⟩

/-- One turn of a reader, in whichever order it looks at the signal to close and at the items. If it goes
on it was not told to close and has looked at everything. -/
theorem readLate_eats (n : Nat) (hw : c.watch = some w) (he : w.ended = none) :
    ∃ eaten w', (c.readLate n).watch = some w' ∧ w.inbound = eaten ++ w'.inbound ∧
      Ate c eaten w'.ended ∧ (w'.ended = none → c.signalled = false ∧ w'.inbound = []) := by
  have turn : c.readLate n =
      if c.signalled then
        readUntil w (fun rest => stopReading { w with inbound := rest } .dropped) n w.inbound c
      else readItems w w.inbound c := by
    simp [readLate, hw, he]
  rw [turn]
  split
  · next told =>
    obtain ⟨sink, -, ⟨quiet, same⟩ | ⟨eaten, rest, reason, parted, ate, same⟩⟩ := readUntil_eats w
      (fun rest => stopReading { w with inbound := rest } .dropped) n w.inbound c
    · rw [same]
      exact ⟨_, _, watch_stopReading _ _ _, (List.take_append_drop n _).symm, .dropped quiet told, by simp⟩
    · rw [same]
      exact ⟨eaten, _, watch_stopReading _ _ _, parted, ate, by simp⟩
  · next untold =>
    rw [readItems_eq]
    obtain ⟨sink, -, ⟨quiet, same⟩ | ⟨eaten, rest, reason, parted, ate, same⟩⟩ := readUntil_eats w
      (fun rest c => { c with watch := some { w with inbound := rest } }) w.inbound.length w.inbound c
    · rw [same]
      refine ⟨_, _, rfl, (List.take_append_drop w.inbound.length _).symm, ?_, fun _ => ⟨?_, ?_⟩⟩
      · rw [he]
        exact .goesOn quiet
      · exact Bool.eq_false_iff.mpr untold
      · exact List.drop_length
    · rw [same]
      exact ⟨eaten, _, watch_stopReading _ _ _, parted, ate, by simp⟩

/-- A reader that was not told to close ends for the first reason that the items give, unless an answer
cannot be written. -/
theorem ended_of_readLate {n : Nat} (hw : c.watch = some w) (he : w.ended = none)
    (untold : c.signalled = false) {w' : Watch} (hw' : (c.readLate n).watch = some w') :
    w'.ended = w.inbound.findSome? Inbound.readEnd? ∨
      w'.ended = some .readError ∧ c.sink.isWhole = false := by
  obtain ⟨eaten, w'', hw'', parted, ate, done⟩ := readLate_eats n hw he
  obtain rfl := Option.some.inj (hw''.symm.trans hw')
  rw [parted]
  refine ate.ended_eq (fun dropped => ?_) fun on x hx => ?_
  · rw [dropped] at ate
    cases ate with
    | item _ ends => exact absurd ends (Inbound.readEnd?_ne_dropped _)
    | dropped _ told =>
      rw [untold] at told
      cases told
  · rw [(done on).2] at hx
    cases hx

theorem isWhole_read (c : Connection) : c.read.sink.isWhole = c.sink.isWhole := by
  have reads := c.reads
  generalize c.read = d at reads
  cases reads with
  | idle => rfl
  | goOn w sink hw he hs hi hl => exact hl
  | stop w sink rest reason hw he hr hl => rwa [stopReading, sink_remove]

/-- The signal is looked at first. -/
theorem readLate_zero (c : Connection) : c.readLate 0 = c.read := by
  rw [readLate, read]
  cases c.watch with
  | none => rfl
  | some w => rfl

end Connection

/-- What a reader has looked at and what stands before it make up what the client sent. -/
def Consumed (given : List Inbound) (c : Connection) : Prop :=
  ∀ w, c.watch = some w → ∃ eaten, given = eaten ++ w.inbound ∧ Ate c eaten w.ended

namespace Consumed

variable {given : List Inbound} {c : Connection}

theorem read (h : Consumed given c) : Consumed given c.read := by
  intro w' hw'
  cases hw : c.watch with
  | none =>
    have still : c.read = c := by simp [Connection.read, hw]
    rw [still, hw] at hw'
    cases hw'
  | some w =>
    obtain ⟨eaten, parted, ate⟩ := h w hw
    cases he : w.ended with
    | some r =>
      have still : c.read = c := by simp [Connection.read, hw, he]
      rw [still] at hw' ⊢
      exact h w' hw'
    | none =>
      obtain ⟨more, w'', hw'', parted', ate', -⟩ := Connection.readLate_eats 0 hw he
      rw [Connection.readLate_zero] at hw''
      obtain rfl := Option.some.inj (hw''.symm.trans hw')
      have ate' : Ate c.read more w''.ended :=
        ate'.mono (c.signalled_act {} .read) fun cut => c.isWhole_read.trans cut
      rw [he] at ate
      exact ⟨eaten ++ more, by rw [parted, parted', List.append_assoc], ate'.append ate.quiet_of_none⟩

theorem act (h : Consumed given c) (t : Tuning) (a : Act) :
    Consumed (given ++ a.item?.toList) (c.act t a) := by
  have aside {d : Connection} (watch : d.watch = c.watch) (told : c.signalled → d.signalled)
      (cut : c.sink.isWhole = false → d.sink.isWhole = false) : Consumed given d := by
    intro w hw
    obtain ⟨eaten, parted, ate⟩ := h w (watch ▸ hw)
    exact ⟨eaten, parted, ate.mono told cut⟩
  obtain rfl | ⟨item, rfl⟩ | rfl | ⟨-, hi, undisturbed⟩ := Connection.act_cases t a c
  · exact (List.append_nil given).symm ▸ h.read
  · intro w' hw'
    obtain ⟨w, hw, rfl⟩ := Option.map_eq_some_iff.mp hw'
    obtain ⟨eaten, parted, ate⟩ := h w hw
    exact ⟨eaten, by rw [parted, List.append_assoc]; rfl, ate.mono id id⟩
  · refine (List.append_nil given).symm ▸ aside rfl id fun cut => ?_
    exact c.sink.isWhole_cut cut
  · have none : a.item? = none := by
      cases a with
      | receive item => exact absurd rfl (hi item)
      | _ => rfl
    rw [none, Option.toList_none, List.append_nil]
    exact aside undisturbed.watch (c.signalled_act t a) fun cut => undisturbed.whole ▸ cut

end Consumed

namespace Service

variable {t : Tuning} {i : Nat} {moves : List Move} {c : Connection}

theorem consumed_of_run (hc : ((start t).after moves).connections[i]? = some c) :
    Consumed ((start t).sent i moves) c := by
  refine run_journal_keep_opened (P := fun g c => Consumed (g.filterMap Act.item?) c) ?_
    (fun _ g c a _ h => ?_) (allows_any moves) hc
  · intro who sink reads w hw
    cases reads with
    | true =>
      obtain rfl := Option.some.inj hw
      exact ⟨[], rfl, .goesOn nofun⟩
    | false => cases hw
  · have next := h.act t a
    rw [List.filterMap_append]
    cases given : a.item? <;> simpa [given] using next

/-- A reader that is not ready ends for the first reason that its client gave it, unless somebody else
removed the connection or the client cut the link. -/
theorem ended_eq_of_run (hc : ((start t).after moves).connections[i]? = some c) {w : Watch}
    (hw : c.watch = some w) (hr : .reader i ∉ ((start t).after moves).ready)
    (stays : ¬ OustedBy ((start t).removals moves) i) :
    w.ended = ((start t).sent i moves).findSome? Inbound.readEnd? ∨
      w.ended = some .readError ∧ c.sink.isWhole = false := by
  obtain ⟨eaten, parted, ate⟩ := consumed_of_run hc w hw
  have dropped : w.ended ≠ some .dropped := by
    intro he
    rw [← Connection.readEnd?_of_watch hw] at he
    rcases reason_of_run hc he with ⟨-, ousted⟩ | ⟨item, -, ends⟩
    · exact stays ousted
    · exact item.readEnd?_ne_dropped ends
  have rest : w.ended = none → ∀ x ∈ w.inbound, x.isHarmless := by
    intro he x hx
    have quiet := (goesOn_of_run hc hw he hr).2 x (parted ▸ List.mem_append_right eaten hx)
    exact Inbound.isHarmless_iff.mpr quiet
  rw [parted]
  exact ate.ended_eq dropped rest

end Service

end Fanout.Live
