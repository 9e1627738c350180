import Fanout.Proofs.Live.Reach
import Fanout.Proofs.Live.Seen
import Fanout.Proofs.Live.Settling

/-!
Two services that look alike to a connection go on to look alike, however many turns of other tasks
come between its own. The turns of its own tasks stand in the same order on both sides, so when both
sides have settled each has been taken on both.
-/

namespace Fanout.Live

/-- Moves on two services lead to services that look alike, and the sink takes the same frames at the
same times. -/
structure Matched (h : Tenant) (i : Nat) (s : Service) (moves : List Move) (j : Nat) (u : Service)
    (moves' : List Move) : Prop where
  alike : Alike h i (s.after moves) j (u.after moves')
  takes : s.journal (Connection.takes s.tuning) i moves =
    u.journal (Connection.takes u.tuning) j moves'

namespace Matched

variable {h : Tenant} {i j : Nat} {s u : Service} {m m' : Move}
  {first second first' second' : List Move}

theorem symm (hm : Matched h i s first j u first') : Matched h j u first' i s first :=
  ⟨hm.alike.symm, hm.takes.symm⟩

theorem append (hm : Matched h i s first j u first')
    (hm' : Matched h i (s.after first) second j (u.after first') second') :
    Matched h i s (first ++ second) j u (first' ++ second') where
  alike := by
    rw [Service.after_append, Service.after_append]
    exact hm'.alike
  takes := by
    have rest := hm'.takes
    rw [Service.tuning_after, Service.tuning_after] at rest
    rw [Service.journal_append, Service.journal_append, hm.takes, rest]

/-- Moves on one side only come first. -/
theorem before (hm : Matched h i s first j u [])
    (hm' : Matched h i (s.after first) second j u second') :
    Matched h i s (first ++ second) j u second' :=
  hm.append hm'

/-- A move on one side that the sink takes nothing at. -/
theorem aside (hm : m ≠ .turn (.writer i)) (rest : Matched h i (s.perform m) first j u first') :
    Matched h i s (m :: first) j u first' where
  alike := rest.alike
  takes := by
    have later := rest.takes
    rw [Service.tuning_perform] at later
    rw [Service.journal, Service.entries_takes_eq_nil hm, List.nil_append, later]

/-- A move on both sides. -/
theorem both (he : s.entries (Connection.takes s.tuning) i m =
      u.entries (Connection.takes u.tuning) j m')
    (rest : Matched h i (s.perform m) first j (u.perform m') first') :
    Matched h i s (m :: first) j u (m' :: first') where
  alike := rest.alike
  takes := by
    have later := rest.takes
    rw [Service.tuning_perform, Service.tuning_perform] at later
    rw [Service.journal, Service.journal, he, later]

/-- A move on both sides that the sink takes nothing at. -/
theorem apart (hm : m ≠ .turn (.writer i)) (hm' : m' ≠ .turn (.writer j))
    (rest : Matched h i (s.perform m) first j (u.perform m') first') :
    Matched h i s (m :: first) j u (m' :: first') :=
  .both (by rw [Service.entries_takes_eq_nil hm, Service.entries_takes_eq_nil hm']) rest

end Matched

namespace Alike

variable {h : Tenant} {i j : Nat} {s u : Service} {a b task : Task} {m m' : Move}

theorem matched (hs : Alike h i s j u) : Matched h i s [] j u [] := ⟨hs, rfl⟩

/-- At a turn that both sides take the sink takes the same. -/
theorem entries_turn (hs : Alike h i s j u) (hn : s.now = u.now) (ha : a.place? i = some task)
    (hb : b.place? j = some task) : s.entries (Connection.takes s.tuning) i (.turn a) =
      u.entries (Connection.takes u.tuning) j (.turn b) := by
  have own (k : Nat) : (Task.writer k).place? k = some (.writer 0) := by simp [Task.place?]
  by_cases hw : task = .writer 0
  · obtain rfl : a = .writer i := Task.eq_of_place? ha (hw ▸ own i)
    obtain rfl : b = .writer j := Task.eq_of_place? hb (hw ▸ own j)
    rw [← hs.tuning]
    exact hs.entries_takes hn s.tuning rfl
  · have not_writer {k : Nat} {c : Task} (hc : c.place? k = some task) :
        Move.turn c ≠ .turn (.writer k) := by
      intro he
      obtain rfl := Move.turn.inj he
      exact hw (Option.some.inj (hc.symm.trans (own k)))
    rw [Service.entries_takes_eq_nil (not_writer ha), Service.entries_takes_eq_nil (not_writer hb)]

/-- At a move of which something is left the sink takes the same. -/
theorem entries_seen (hs : Alike h i s 0 u) (hn : s.now = u.now) {registered : Nat}
    (hm : m.seen h i registered = some m') : s.entries (Connection.takes s.tuning) i m =
      u.entries (Connection.takes u.tuning) 0 m' := by
  by_cases hw : ∃ a, m = .turn a
  · obtain ⟨a, rfl⟩ := hw
    obtain ⟨task, ha, rfl⟩ := Option.map_eq_some_iff.mp hm
    have hb := a.place?_bind i
    rw [ha] at hb
    exact hs.entries_turn hn ha hb
  · have other : ∀ a, m' ≠ .turn a := by
      rintro a rfl
      cases m with
      | turn b => exact hw ⟨b, rfl⟩
      | _ => simp [Move.seen] at hm
    rw [Service.entries_takes_eq_nil fun he => hw ⟨_, he⟩, Service.entries_takes_eq_nil (other _)]

/-! ### Turns -/

theorem turn_ne_of_place? (ha : a.place? i = none) : Move.turn a ≠ .turn (.writer i) := by
  rintro he
  obtain rfl := Move.turn.inj he
  simp [Task.place?] at ha

/-- No task of the connection is ready, so it does not notice the turns that are taken. -/
theorem turns_other (hs : Alike h i s j u) (hr : s.ready.filterMap (Task.place? i) = []) (n : Nat) :
    Matched h i s (Service.turnMoves n s) j u [] := by
  induction n generalizing s with
  | zero => exact hs.matched
  | succ n ih =>
    cases he : s.ready with
    | nil =>
      rw [(Service.turns_of_idle he _).2]
      exact hs.matched
    | cons a rest =>
      have ha : a.place? i = none := by
        rw [he] at hr
        exact (List.filterMap_eq_nil_iff.mp hr) a List.mem_cons_self
      have next := hs.turn_other ha
      rw [(Service.turns_succ he n).2]
      exact .aside (turn_ne_of_place? ha) (ih next (next.ready.trans (hs.ready.symm.trans hr)))

/-- The next task of the connection is ready on both sides, or on neither. -/
theorem ready_cons (hs : Alike h i s j u) {rest : List Task} (hr : s.ready = a :: rest)
    (ha : a.place? i = some task) : ∃ b rest', u.ready = b :: rest' ∧
      (b.place? j = none ∨ b.place? j = some task) := by
  have same := hs.ready
  rw [hr, List.filterMap_cons_some ha] at same
  cases hu : u.ready with
  | nil =>
    rw [hu] at same
    cases same
  | cons b rest' =>
    refine ⟨b, rest', rfl, ?_⟩
    rw [hu] at same
    cases hb : b.place? j with
    | none => exact .inl rfl
    | some other =>
      rw [List.filterMap_cons_some hb] at same
      exact .inr (congrArg some (List.cons.inj same).1.symm)

/-- Both sides take turns until nobody is ready. -/
theorem turns (hs : Alike h i s j u) (hn : s.now = u.now) {n k : Nat}
    (hq : (Service.turns n s).ready = []) (hq' : (Service.turns k u).ready = []) :
    Matched h i s (Service.turnMoves n s) j u (Service.turnMoves k u) := by
  have idle {s u : Service} {i j n k : Nat} (hs : Alike h i s j u) (hr : s.ready = []) :
      Matched h i s (Service.turnMoves n s) j u (Service.turnMoves k u) := by
    have hr' : u.ready.filterMap (Task.place? j) = [] := by
      rw [← hs.ready, hr]
      rfl
    rw [(Service.turns_of_idle hr n).2]
    exact (hs.symm.turns_other hr' k).symm
  induction n generalizing s u k with
  | zero => exact idle hs hq
  | succ n ih =>
    cases hr : s.ready with
    | nil => exact idle hs hr
    | cons a rest =>
      have now_a : (s.perform (.turn a)).now = s.now := s.now_perform _
      rw [(Service.turns_succ hr n).1] at hq
      rw [(Service.turns_succ hr n).2]
      cases ha : a.place? i with
      | none => exact .aside (turn_ne_of_place? ha) (ih (hs.turn_other ha) (now_a.trans hn) hq hq')
      | some task =>
        -- the turns of other tasks on the far side come first
        induction k generalizing u with
        | zero =>
          obtain ⟨b, rest', hu, -⟩ := hs.ready_cons hr ha
          have none : u.ready = [] := hq'
          rw [none] at hu
          cases hu
        | succ k ihk =>
          obtain ⟨b, rest', hu, hb⟩ := hs.ready_cons hr ha
          have now_b : (u.perform (.turn b)).now = u.now := u.now_perform _
          rw [(Service.turns_succ hu k).1] at hq'
          rw [(Service.turns_succ hu k).2]
          rcases hb with hb | hb
          · have later := ihk (hs.symm.turn_other hb).symm (hn.trans now_b.symm) hq'
            exact (Matched.aside (turn_ne_of_place? hb) later.symm).symm
          · refine .both (hs.entries_turn hn ha hb) ?_
            exact ih (hs.turn hn ha hb) (now_a.trans (hn.trans now_b.symm)) hq hq'

theorem settle (hs : Alike h i s j u) (hn : s.now = u.now) :
    Matched h i s s.settleMoves j u u.settleMoves :=
  hs.turns hn s.ready_settle u.ready_settle

end Alike

/-! ### Deadlines -/

namespace Service

/-- When the writer of a connection will not wait any longer, by the number of the connection. -/
def deadlineOf? (s : Service) (i : Nat) : Option Nat :=
  s.connections[i]?.bind fun c => c.writer.deadline?

theorem deadlineOf?_eq {s : Service} {i : Nat} {c : Connection} (hc : s.connections[i]? = some c) :
    s.deadlineOf? i = c.writer.deadline? := by
  simp [deadlineOf?, hc]

theorem place_due (s : Service) (i : Nat) : s.due.filterMap (Task.place? i) =
    if (s.deadlineOf? i).any (· ≤ s.now) then [.writer 0] else [] := by
  have due : i ∈ (s.numbers fun c => c.writer.deadline?.any (· ≤ s.now)) ↔
      (s.deadlineOf? i).any (· ≤ s.now) := by
    rw [mem_numbers]
    cases hc : s.connections[i]? with
    | none => simp [deadlineOf?, hc]
    | some c => simp [deadlineOf?_eq hc]
  rw [Service.due, place_numbers (.inl rfl) i (s.nodup_numbers _)]
  simp only [due]

end Service

namespace Alike

variable {h : Tenant} {i j : Nat} {s u : Service}

theorem deadlineOf? (hs : Alike h i s j u) : s.deadlineOf? i = u.deadlineOf? j := by
  cases hc : s.connections[i]? with
  | none => simp [Service.deadlineOf?, hc, hs.of_none hc]
  | some c =>
    obtain ⟨d, hd, same⟩ := hs.of_some hc
    rw [Service.deadlineOf?_eq hc, Service.deadlineOf?_eq hd]
    exact (congrArg (fun c => c.writer.deadline?) same :)

/-- Those who are woken at a time at which this connection has no deadline. -/
theorem dueMoves_other (hs : Alike h i s j u) {time : Nat}
    (hd : ∀ d, s.deadlineOf? i = some d → max s.now time < d) :
    Matched h i s (s.dueMoves time) j u [] := by
  have ticked : Alike h i (s.perform (.tick (time - s.now))) j u := hs.veiled rfl rfl
  have none : (s.perform (.tick (time - s.now))).due.filterMap (Task.place? i) = [] := by
    rw [Service.place_due, if_neg]
    intro late
    obtain ⟨d, hd', hl⟩ := Option.any_eq_true _ _ |>.mp late
    have := hd d hd'
    have : d ≤ s.now + (time - s.now) := of_decide_eq_true hl
    omega
  refine .aside nofun (.aside nofun (Alike.matched (ticked.aside rfl rfl rfl ?_)))
  show (enlist _ _).filterMap _ = _
  rw [filterMap_enlist, none]
  rfl

/-- Those who are woken at a time that both sides come to. -/
theorem dueMoves (hs : Alike h i s j u) {time : Nat} (hn : max s.now time = max u.now time) :
    Matched h i s (s.dueMoves time) j u (u.dueMoves time) := by
  have now {s : Service} : (s.perform (.tick (time - s.now))).now = max s.now time := by
    simp only [Service.perform]
    omega
  have ticked : Alike h i (s.perform (.tick (time - s.now))) j (u.perform (.tick (time - u.now))) :=
    hs.veiled rfl rfl
  refine .apart (by simp) (by simp) (.apart (by simp) (by simp) (Alike.matched (ticked.wake ?_)))
  simp only [Service.place_due, ticked.deadlineOf?, now, hn]

/-- A deadline of another connection is not noticed. -/
theorem fire_other (hs : Alike h i s j u) (hr : s.ready = []) {time : Nat}
    (hd : ∀ d, s.deadlineOf? i = some d → max s.now time < d) :
    Matched h i s (s.fireMoves time) j u [] := by
  have due := hs.dueMoves_other hd
  refine due.before (due.alike.turns_other ?_ _)
  rw [due.alike.ready]
  show u.ready.filterMap _ = []
  rw [← hs.ready, hr]
  rfl

/-- A deadline that both sides come to. -/
theorem fire (hs : Alike h i s j u) {time : Nat} (hn : max s.now time = max u.now time) :
    Matched h i s (s.fireMoves time) j u (u.fireMoves time) := by
  have due := hs.dueMoves hn
  refine due.append (due.alike.settle ?_)
  show s.now + (time - s.now) = u.now + (time - u.now)
  omega

end Alike

end Fanout.Live
