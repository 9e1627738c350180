import Fanout.Proofs.Live.Failure
import Fanout.Proofs.Live.Stride

/-!
Calls for the removal of a connection. A caller, a broadcast, the writer and the reader may each make
them; the first call does it, the others do nothing, and without a call no connection leaves the
registry.
-/

namespace Fanout.Live

/-- Who calls for a removal. -/
inductive Remover where
  | caller
  | broadcast
  | writer
  | reader
deriving DecidableEq, Repr

/-- A call for a removal: the number of the connection, if there is one, and whether the call took
it off the registry. -/
structure Removal where
  target : Option Nat
  origin : Remover
  done : Bool
deriving DecidableEq, Repr

/-- A call made by a broadcast that took the connection off. -/
def Removal.isEviction (x : Removal) : Bool := x.done && x.origin == .broadcast

/-- No body is handed over by the act. -/
def Act.isSilent : Act → Bool
  | broadcast _ _ | hand _ _ => false
  | _ => true

namespace Connection

/-- A broadcast calls for the removal of a connection that it is meant for and that does not accept
the frame. -/
def eviction (t : Tuning) (i : Nat) (tag : Tenant) (c : Connection) : List Removal :=
  if c.isTarget tag && !c.accepts t.capacity then [⟨some i, .broadcast, c.registered⟩] else []

/-- The calls for a removal that an act makes. A writer makes one when it ends on a failure, and a
reader when it ends. -/
def removals (t : Tuning) (i : Nat) (c : Connection) : Act → List Removal
  | .remove => [⟨some i, .caller, c.registered⟩]
  | .broadcast _ tag => c.eviction t i tag
  | .hand b body =>
    match b.audience? body with
    | none => []
    | some tag => c.eviction t i tag
  | .write now =>
    if !c.writer.isFinished && (c.write t now).writer == .finished .failed then
      [⟨some i, .writer, c.registered⟩]
    else []
  | .read =>
    if c.readEnd?.isNone && c.read.readEnd?.isSome then [⟨some i, .reader, c.registered⟩] else []
  | .deliver _ | .behave _ | .receive _ | .cut | .fetch => []

variable {t : Tuning} {i : Nat} {c : Connection}

/-- An act makes one call at the most, which does it just in case the connection is still there. -/
theorem removals_cases (a : Act) :
    c.removals t i a = [] ∨ ∃ origin, c.removals t i a = [⟨some i, origin, c.registered⟩] := by
  have evicted (tag : Tenant) : c.eviction t i tag = [] ∨
      ∃ origin, c.eviction t i tag = [⟨some i, origin, c.registered⟩] := by
    unfold eviction
    split
    · exact .inr ⟨_, rfl⟩
    · exact .inl rfl
  cases a with
  | remove => exact .inr ⟨_, rfl⟩
  | broadcast body tag => exact evicted tag
  | hand b body =>
    simp only [removals]
    cases b.audience? body with
    | none => exact .inl rfl
    | some tag => exact evicted tag
  | write now =>
    simp only [removals]
    split
    · exact .inr ⟨_, rfl⟩
    · exact .inl rfl
  | read =>
    simp only [removals]
    split
    · exact .inr ⟨_, rfl⟩
    · exact .inl rfl
  | deliver _ | behave _ | receive _ | cut | fetch => exact .inl rfl

@[simp] theorem registered_remove (c : Connection) : c.remove.registered = false := by
  cases h : c.registered <;> simp [remove, h]

theorem registered_offer (body : Octets) (tag : Tenant) :
    (c.offer t body tag).registered = (c.registered && (c.eviction t i tag).isEmpty) := by
  unfold offer eviction
  cases ht : c.isTarget tag with
  | false => simp
  | true =>
    obtain ⟨ha, hd⟩ | ⟨ha, e, hd⟩ := deliver_cases t.capacity (Frame.ofBody body) c
    · simp [receive, hd, ha]
    · simp [receive, hd, ha]

theorem registered_stride {timeout now : Nat} {d : Connection} (h : Strides timeout now c d) :
    d.registered = (c.registered && !(d.writer == .finished .failed)) := by
  cases h with
  | finish sink ending e hw hs => cases ending <;> simp [finish]
  | _ => simp [startClosing]

/-- A connection leaves the registry by a call, and in no other way. -/
theorem registered_act (t : Tuning) (i : Nat) (c : Connection) (a : Act) :
    (c.act t a).registered = (c.registered && (c.removals t i a).isEmpty) := by
  cases a with
  | deliver f =>
    obtain ⟨-, hd⟩ | ⟨-, e, hd⟩ := deliver_cases t.capacity f c
    · simp [act, enqueue, removals, hd]
    · simp [act, enqueue, removals, hd]
  | broadcast body tag => exact registered_offer body tag
  | hand b body =>
    simp only [act, hand, removals]
    cases b.audience? body with
    | none => simp
    | some tag => exact registered_offer body tag
  | remove => simp [act, removals]
  | write now =>
    simp only [act, removals]
    obtain ⟨-, hw⟩ | hs := c.write_cases t now
    · rw [hw]
      cases c.writer <;> simp [Writer.isFinished]
    · rw [registered_stride hs, hs.isFinished]
      cases (c.write t now).writer == .finished .failed <;> simp
  | read =>
    simp only [act, removals]
    obtain ⟨sink, watch, -, ⟨hr, he⟩ | ⟨hr, hn, he⟩⟩ := c.read_cases
    · have he' : c.read.readEnd? = c.readEnd? := by rw [hr]; exact he
      rw [he']
      cases h : c.readEnd? <;> simp [hr]
    · have he' : c.read.readEnd?.isSome := by
        rw [hr, readEnd?, watch_remove]
        exact he
      have hg : c.read.registered = false := by rw [hr]; exact registered_remove _
      simp [hn, he', hg]
  | behave _ | receive _ | cut | fetch => simp [act, removals, hear, fetch]

theorem target_of_mem_journal (l : List Act) :
    ∀ x ∈ c.journal (removals t i) t l, x.target = some i := by
  induction l generalizing c with
  | nil => simp [journal]
  | cons a rest ih =>
    intro x hx
    rw [journal, List.mem_append] at hx
    rcases hx with hx | hx
    · obtain h | ⟨origin, h⟩ := removals_cases (t := t) (i := i) (c := c) a
      · simp [h] at hx
      · rw [h, List.mem_singleton] at hx
        rw [hx]
    · exact ih x hx

/-- One more call that takes the connection off, for each connection that leaves. -/
theorem registered_acts (i : Nat) (l : List Act) (c : Connection) :
    ((c.acts t l).registered.toNat + (c.journal (removals t i) t l).countP (·.done)) =
      c.registered.toNat := by
  induction l generalizing c with
  | nil => simp [acts_nil, journal]
  | cons a rest ih =>
    have hi := ih (c.act t a)
    have hr := registered_act t i c a
    rw [acts_cons, journal, List.countP_append]
    obtain hn | ⟨origin, hn⟩ := removals_cases (t := t) (i := i) (c := c) a
    · rw [hn] at hr ⊢
      simp only [List.isEmpty_nil, Bool.and_true] at hr
      rw [hr] at hi
      simpa using hi
    · rw [hn] at hr ⊢
      simp only [List.isEmpty_cons, Bool.and_false] at hr
      rw [hr] at hi
      rw [List.countP_singleton]
      cases c.registered <;> simp only [Bool.toNat_false, Bool.toNat_true, ite_true, ite_false,
        Bool.false_eq_true] at hi ⊢ <;> omega

end Connection

/-- The calls for the removal of one connection. As long as it is registered there were none; the
first one did it and the others did nothing. -/
structure Called (g : List Removal) (c : Connection) : Prop where
  present : c.registered → g = []
  gone : c.registered = false → ∃ n, g.map Removal.done = true :: List.replicate n false

theorem Called.act {t : Tuning} {i : Nat} {g : List Removal} {c : Connection} (a : Act)
    (hg : Called g c) : Called (g ++ c.removals t i a) (c.act t a) := by
  have hr := Connection.registered_act t i c a
  obtain hn | ⟨origin, hn⟩ := Connection.removals_cases (t := t) (i := i) (c := c) a
  · have hc : (c.act t a).registered = c.registered := by simpa [hn] using hr
    rw [hn, List.append_nil]
    exact ⟨fun h => hg.present (hc ▸ h), fun h => hg.gone (hc ▸ h)⟩
  · have hc : (c.act t a).registered = false := by simpa [hn] using hr
    refine ⟨fun h => absurd h (by simp [hc]), fun _ => ?_⟩
    cases h : c.registered with
    | true => exact ⟨0, by simp [hn, h, hg.present h]⟩
    | false =>
      obtain ⟨n, hd⟩ := hg.gone h
      exact ⟨n + 1, by simp [hn, h, hd, List.replicate_succ']⟩

end Fanout.Live
