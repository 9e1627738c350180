import Fanout.Proofs.Live.Alike

/-!
What one connection sees of a move. Most moves concern it or do not; of what a bridge takes from its
stream the events for other tenants are left out. What is left, done to a service that looks alike,
leads to services that look alike.
-/

namespace Fanout.Live

/-! ### Moves -/

/-- What is left of a move for one connection, once so many have registered before. The connection's
own number becomes the first. -/
def Move.seen (h : Tenant) (i registered : Nat) : Move → Option Move
  | .register who sink reads =>
    if registered = i then some (.register who sink reads) else none
  | .remove j => if j = i then some (.remove 0) else none
  | .deliver j f => if j = i then some (.deliver 0 f) else none
  | .broadcast body tag => if tag.reaches h then some (.broadcast body tag) else none
  | .hand b body => if Octets.concerns h body then some (.hand b body) else none
  | .play b broker =>
    some (.play b { broker with deliveries := broker.deliveries.filter (Delivery.concerns h) })
  | .spawn b broker =>
    some (.spawn b { broker with deliveries := broker.deliveries.filter (Delivery.concerns h) })
  | .feed run item last => some (.feed run (item.filter (Delivery.concerns h)) last)
  | .behave j p => if j = i then some (.behave 0 p) else none
  | .receive j item => if j = i then some (.receive 0 item) else none
  | .cutOff j => if j = i then some (.cutOff 0) else none
  | .fetch j => if j = i then some (.fetch 0) else none
  | .turn task => (task.place? i).map .turn
  | .wake tasks =>
    let own := tasks.filterMap (Task.place? i)
    if own = [] then none else some (.wake own)
  | .tick ms => some (.tick ms)
  | .setStatus status => some (.setStatus status)

/-- The connection that an operation concerns alone, and the operation for a connection of any
number. -/
def Move.sole? : Move → Option (Nat × (Nat → Move))
  | .remove k => some (k, .remove)
  | .deliver k f => some (k, (.deliver · f))
  | .behave k p => some (k, (.behave · p))
  | .receive k item => some (k, (.receive · item))
  | .cutOff k => some (k, .cutOff)
  | .fetch k => some (k, .fetch)
  | _ => none

theorem Move.seen_of_sole {m : Move} {k : Nat} {f : Nat → Move} (hm : m.sole? = some (k, f))
    (h : Tenant) (i registered : Nat) :
    m = f k ∧ m.seen h i registered = if k = i then some (f 0) else none := by
  cases m with
  | remove _ | deliver _ _ | behave _ _ | receive _ _ | cutOff _ | fetch _ =>
    obtain ⟨rfl, rfl⟩ := Prod.mk.inj (Option.some.inj hm)
    exact ⟨rfl, rfl⟩
  | _ => cases hm

/-- What such an operation does does not depend on the number, nor on how the attempt of the
connection is numbered. -/
theorem Move.befalls_of_sole {m : Move} {k : Nat} {f : Nat → Move} (hm : m.sole? = some (k, f))
    (t : Tuning) : ∃ l calls, (∀ c : Connection, l c.bare = l c) ∧
      (∀ c : Connection, calls (some c.bare) = calls (some c)) ∧
      ∀ (s : Service) (n : Nat), s.tuning = t → Befalls n l calls s (s.perform (f n)) := by
  cases m with
  | remove _ =>
    obtain ⟨rfl, rfl⟩ := Prod.mk.inj (Option.some.inj hm)
    exact ⟨_, _, fun _ => rfl, fun _ => rfl, fun s n _ => s.befalls_remove n⟩
  | deliver _ frame =>
    obtain ⟨rfl, rfl⟩ := Prod.mk.inj (Option.some.inj hm)
    refine ⟨fun _ => [.deliver frame], fun o => if o.any (·.accepts t.capacity) then [.writer] else [],
      fun _ => rfl, fun _ => rfl, ?_⟩
    rintro s n rfl
    exact s.befalls_deliver n frame
  | behave _ p =>
    obtain ⟨rfl, rfl⟩ := Prod.mk.inj (Option.some.inj hm)
    refine ⟨fun _ => [.behave p], fun _ => [.writer], fun _ => rfl, fun _ => rfl, fun s n _ => ?_⟩
    exact s.befalls_modify n _ _ _ (fun _ => rfl) (by simp)
  | receive _ item =>
    obtain ⟨rfl, rfl⟩ := Prod.mk.inj (Option.some.inj hm)
    refine ⟨fun _ => [.receive item], fun _ => [.reader], fun _ => rfl, fun _ => rfl, fun s n _ => ?_⟩
    exact s.befalls_modify n _ _ _ (fun _ => rfl) (by simp)
  | cutOff _ =>
    obtain ⟨rfl, rfl⟩ := Prod.mk.inj (Option.some.inj hm)
    refine ⟨fun _ => [.cut, .receive .error], fun _ => [.reader, .writer], fun _ => rfl,
      fun _ => rfl, fun s n _ => ?_⟩
    show Befalls n _ _ s (s.cutOff n)
    rw [s.cutOff_eq n]
    exact s.befalls_modify n _ _ _ (fun _ => rfl) (by simp)
  | fetch _ =>
    obtain ⟨rfl, rfl⟩ := Prod.mk.inj (Option.some.inj hm)
    refine ⟨fun _ => [.fetch], fun _ => [.writer], fun _ => rfl, fun _ => rfl, fun s n _ => ?_⟩
    exact s.befalls_modify n _ _ _ (fun _ => rfl) (by simp)
  | _ => cases hm

namespace Alike

variable {h : Tenant} {i j : Nat} {s s' u u' : Service} {m m' : Move}

theorem erase (hs : Alike h i s j u) {a b task : Task} (ha : a.place? i = some task)
    (hb : b.place? j = some task) :
    Alike h i { s with ready := s.ready.erase a } j { u with ready := u.ready.erase b } :=
  ⟨hs.tuning, hs.connection, hs.holder, hs.bridges,
    by simp only [filterMap_erase ha, filterMap_erase hb, hs.ready]⟩

theorem erase_other (hs : Alike h i s j u) {a : Task} (ha : a.place? i = none) :
    Alike h i { s with ready := s.ready.erase a } j u :=
  hs.aside rfl rfl rfl (filterMap_erase_none ha _)

/-- A turn of a task of the connection, or of a bridge. -/
theorem turn (hs : Alike h i s j u) (hn : s.now = u.now) {a b task : Task}
    (ha : a.place? i = some task) (hb : b.place? j = some task) :
    Alike h i (s.perform (.turn a)) j (u.perform (.turn b)) := by
  have erased := hs.erase ha hb
  cases a with
  | writer k =>
    obtain ⟨rfl, rfl⟩ : k = i ∧ Task.writer 0 = task := by simpa [Task.place?] using ha
    obtain rfl : b = .writer j := Task.eq_of_place? hb (by simp [Task.place?])
    refine erased.befall (Service.befalls_runWriter _ k rfl rfl)
      (Service.befalls_runWriter _ j hs.tuning.symm hn.symm) (fun _ => rfl) ?_
    intro c
    simp only [Option.any_some, ← Connection.bare_drive]
    rfl
  | reader k =>
    obtain ⟨rfl, rfl⟩ : k = i ∧ Task.reader 0 = task := by simpa [Task.place?] using ha
    obtain rfl : b = .reader j := Task.eq_of_place? hb (by simp [Task.place?])
    refine erased.befall (Service.befalls_runReader _ k) (Service.befalls_runReader _ j)
      (fun _ => rfl) ?_
    intro c
    simp only [Option.any_some, ← Connection.bare_read, Connection.readEnd?_bare]
  | bridge k =>
    obtain rfl : Task.bridge k = task := Option.some.inj ha
    obtain rfl : b = .bridge k := Task.eq_of_place? hb rfl
    exact erased.runBridge k

/-- A turn of a task of another connection. -/
theorem turn_other (hs : Alike h i s j u) {a : Task} (ha : a.place? i = none) :
    Alike h i (s.perform (.turn a)) j u := by
  have erased := hs.erase_other ha
  cases a with
  | writer k =>
    have hk : k ≠ i := by simpa [Task.place?] using ha
    exact erased.elsewhere (Service.befalls_runWriter _ k rfl rfl) hk
  | reader k =>
    have hk : k ≠ i := by simpa [Task.place?] using ha
    exact erased.elsewhere (Service.befalls_runReader _ k) hk
  | bridge k => cases ha

/-- A new connection on both sides. -/
theorem register (hs : Alike h i s j u) (hi : s.connections.length = i)
    (hj : u.connections.length = j) {who : Bearer} (hw : who.tenant = h) (sink : Sink)
    (reads : Bool) :
    Alike h i (s.perform (.register who sink reads)) j (u.perform (.register who sink reads)) := by
  subst hi hj
  have watch (n : Nat) : (if reads then some (Watch.begin n) else none).map Watch.bare =
      if reads then some (Watch.begin 0).bare else none := by
    cases reads <;> rfl
  have tasks (n : Nat) : (if reads then [Task.writer n, .reader n] else [.writer n]).filterMap
      (Task.place? n) = if reads then [.writer 0, .reader 0] else [.writer 0] := by
    cases reads <;> simp [Task.place?]
  rw [Service.perform_register, Service.perform_register, hs.tuning]
  split
  · exact hs
  · refine Alike.wake ?_ ((tasks _).trans (tasks _).symm)
    refine ⟨rfl, ?_, ?_, hs.bridges, hs.ready⟩
    · simp [Connection.bare, watch]
    · intro c hc
      obtain rfl : _ = c := by simpa using hc
      exact hw

/-- A new connection that is another one. -/
theorem register_other (hs : Alike h i s j u) (hi : s.connections.length ≠ i) (who : Bearer)
    (sink : Sink) (reads : Bool) : Alike h i (s.perform (.register who sink reads)) j u := by
  rw [Service.perform_register]
  split
  · exact hs
  · refine hs.aside rfl ?_ rfl ?_
    · simp only [Service.connections_wake]
      by_cases hl : i < s.connections.length
      · rw [List.getElem?_append_left hl]
      · rw [List.getElem?_eq_none (by simp; omega), List.getElem?_eq_none (by omega)]
    · show (enlist s.ready _).filterMap _ = _
      have none : (if reads then [Task.writer s.connections.length, .reader s.connections.length]
          else [.writer s.connections.length]).filterMap (Task.place? i) = [] := by
        cases reads <;> simp [Task.place?, hi]
      rw [filterMap_enlist, none]
      rfl

/-- What is left of a move for a connection, done on the other side, leaves them alike. -/
theorem perform (hs : Alike h i s 0 u) (hn : s.now = u.now)
    (hm : m.seen h i s.connections.length = some m')
    (hw : ∀ who sink reads, m' = .register who sink reads →
      who.tenant = h ∧ u.connections.length = 0) :
    Alike h i (s.perform m) 0 (u.perform m') := by
  cases hk : m.sole? with
  | some sole =>
    obtain ⟨k, f⟩ := sole
    obtain ⟨rfl, seen⟩ := Move.seen_of_sole hk h i s.connections.length
    obtain ⟨rfl, rfl⟩ : k = i ∧ f 0 = m' := by simpa [seen] using hm
    obtain ⟨l, calls, hl, hcalls, befalls⟩ := Move.befalls_of_sole hk s.tuning
    exact hs.befall (befalls s k rfl) (befalls u 0 hs.tuning.symm) hl hcalls
  | none =>
    cases m with
    | register who sink reads =>
      obtain ⟨hi, rfl⟩ : s.connections.length = i ∧ Move.register who sink reads = m' := by
        simpa [Move.seen] using hm
      obtain ⟨hw, hu⟩ := hw who sink reads rfl
      exact hs.register hi hu hw sink reads
    | broadcast body tag =>
      obtain ⟨-, rfl⟩ : tag.reaches h ∧ Move.broadcast body tag = m' := by
        simpa [Move.seen] using hm
      exact hs.broadcast body tag
    | hand b body =>
      obtain ⟨-, rfl⟩ : Octets.concerns h body ∧ Move.hand b body = m' := by
        simpa [Move.seen] using hm
      exact hs.dispatch b body
    | play b broker =>
      obtain rfl := Option.some.inj hm
      exact hs.playBridge b broker
    | spawn b broker =>
      obtain rfl := Option.some.inj hm
      exact hs.addBridge b broker
    | feed run item last =>
      obtain rfl := Option.some.inj hm
      exact hs.feed run item last
    | turn task =>
      obtain ⟨task', ht, rfl⟩ := Option.map_eq_some_iff.mp hm
      have there := task.place?_bind i
      rw [ht] at there
      exact hs.turn hn ht there
    | wake tasks =>
      obtain ⟨-, rfl⟩ : tasks.filterMap (Task.place? i) ≠ [] ∧
          Move.wake (tasks.filterMap (Task.place? i)) = m' := by
        simpa only [Move.seen, Option.ite_none_left_eq_some, Option.some.injEq] using hm
      refine hs.wake ?_
      rw [List.filterMap_filterMap]
      simp only [Task.place?_bind]
    | tick ms =>
      obtain rfl := Option.some.inj hm
      exact hs.veiled rfl rfl
    | setStatus status =>
      obtain rfl := Option.some.inj hm
      exact hs.veiled rfl rfl
    | remove _ | deliver _ _ | behave _ _ | receive _ _ | cutOff _ | fetch _ => cases hk

/-- A move of which nothing is left changes nothing that can be seen. -/
theorem perform_other (hs : Alike h i s j u) (hm : m.seen h i s.connections.length = none) :
    Alike h i (s.perform m) j u := by
  cases hk : m.sole? with
  | some sole =>
    obtain ⟨k, f⟩ := sole
    obtain ⟨rfl, seen⟩ := Move.seen_of_sole hk h i s.connections.length
    have other : k ≠ i := by simpa [seen] using hm
    obtain ⟨l, calls, -, -, befalls⟩ := Move.befalls_of_sole hk s.tuning
    exact hs.elsewhere (befalls s k rfl) other
  | none =>
    cases m with
    | register who sink reads =>
      have other : s.connections.length ≠ i := by simpa [Move.seen] using hm
      exact hs.register_other other who sink reads
    | broadcast body tag =>
      have other : tag.reaches h = false := by simpa [Move.seen] using hm
      exact hs.broadcast_other body other
    | hand b body =>
      have other : Octets.concerns h body = false := by simpa [Move.seen] using hm
      exact hs.dispatch_other b other
    | turn task => exact hs.turn_other (Option.map_eq_none_iff.mp hm)
    | wake tasks =>
      have none : tasks.filterMap (Task.place? i) = [] := by
        simpa only [Move.seen, ite_eq_left_iff, reduceCtorEq, imp_false, Decidable.not_not] using hm
      refine hs.aside rfl rfl rfl ?_
      show (enlist s.ready tasks).filterMap _ = _
      rw [filterMap_enlist, none]
      rfl
    | play _ _ | spawn _ _ | feed _ _ _ | tick _ | setStatus _ => cases hm
    | remove _ | deliver _ _ | behave _ _ | receive _ _ | cutOff _ | fetch _ => cases hk

end Alike

/-! ### What the sink takes, and when -/

namespace Connection

/-- The frames that the sink takes at an act, each with the time. -/
def takes (t : Tuning) (now : Nat) (c : Connection) (a : Act) : List (Nat × Frame) :=
  (c.incidents t a).put.map fun f => (now, f)

theorem takes_eq_nil {t : Tuning} {now : Nat} {a : Act} (ha : ∀ time, a ≠ .write time)
    (c : Connection) : c.takes t now a = [] := by
  have accepted (f : Frame) : (c.acceptance t f).put = [] := by
    unfold acceptance
    split <;> rfl
  have offered (body : Octets) (tag : Tenant) : (c.offering t body tag).put = [] := by
    unfold offering
    split
    · exact accepted _
    · rfl
  have handed (b : Bridge) (body : Octets) : (c.handing t b body).put = [] := by
    unfold handing
    rw [History.put_append]
    have heard : History.put (if c.registered then [.heard b body] else []) = [] := by
      split <;> rfl
    rw [heard, List.nil_append]
    split
    · rfl
    · exact offered body _
  unfold takes
  cases a with
  | deliver f => exact congrArg _ (accepted f)
  | broadcast body tag => exact congrArg _ (offered body tag)
  | hand b body => exact congrArg _ (handed b body)
  | write time => exact absurd rfl (ha time)
  | _ => rfl

theorem takes_bare (t : Tuning) (now time : Nat) (c : Connection) :
    c.bare.takes t now (.write time) = c.takes t now (.write time) := rfl

/-- The writer's turn with the bare connection. -/
theorem journal_takes_bare (t : Tuning) (now n : Nat) (c : Connection) :
    c.bare.journal (takes t now) t (List.replicate n (.write now)) =
      c.journal (takes t now) t (List.replicate n (.write now)) := by
  induction n generalizing c with
  | zero => rfl
  | succ n ih =>
    have next : c.bare.act t (.write now) = (c.act t (.write now)).bare := (c.bare_act t _).symm
    rw [List.replicate_succ, journal, journal, takes_bare, next, ih]

theorem map_takes (t : Tuning) (now : Nat) (c : Connection) (l : List Act) :
    (c.journal (takes t now) t l).map Prod.snd = (c.history t l).put := by
  induction l generalizing c with
  | nil => rfl
  | cons a rest ih =>
    have first : (c.takes t now a).map Prod.snd = (c.incidents t a).put := by
      simp [takes, Function.comp_def]
    rw [journal, history, List.map_append, History.put_append, first, ih]

end Connection

namespace Service

/-- The frames of a run's journal are those of its history. -/
theorem map_takes (s : Service) (i : Nat) (moves : List Move) :
    (s.journal (Connection.takes s.tuning) i moves).map Prod.snd = (s.history i moves).put := by
  induction moves generalizing s with
  | nil => rfl
  | cons m rest ih =>
    have first : (s.entries (Connection.takes s.tuning) i m).map Prod.snd =
        (s.incidents i m).put := by
      unfold entries incidents
      cases s.connections[i]? with
      | none => rfl
      | some c => exact c.map_takes s.tuning s.now _
    have later := ih (s.perform m)
    rw [tuning_perform] at later
    rw [journal, history, List.map_append, History.put_append, first, later]

/-- The sink of a connection takes frames at the turns of the writer only. -/
theorem entries_takes_eq_nil {s : Service} {t : Tuning} {i : Nat} {m : Move}
    (hm : m ≠ .turn (.writer i)) : s.entries (Connection.takes t) i m = [] := by
  unfold entries
  cases s.connections[i]? with
  | none => rfl
  | some c =>
    refine Connection.journal_eq_nil ?_ c
    intro a ha d
    refine Connection.takes_eq_nil ?_ d
    rintro time rfl
    exact hm (of_write_mem_acts ha).1

end Service

namespace Alike

variable {h : Tenant} {i j : Nat} {s u : Service} {m m' : Move}

theorem entries_takes (hs : Alike h i s j u) (hn : s.now = u.now) (t : Tuning) (ht : s.tuning = t) :
    s.entries (Connection.takes t) i (.turn (.writer i)) =
      u.entries (Connection.takes t) j (.turn (.writer j)) := by
  subst ht
  unfold Service.entries
  cases hc : s.connections[i]? with
  | none => rw [hs.of_none hc]
  | some c =>
    obtain ⟨d, hd, hb⟩ := hs.of_some hc
    have effort : c.effort = d.effort := (congrArg Connection.effort hb :)
    simp only [hd, Service.acts, if_true, ← hs.tuning, ← hn, effort]
    rw [← Connection.journal_takes_bare, hb, Connection.journal_takes_bare]

end Alike

end Fanout.Live
