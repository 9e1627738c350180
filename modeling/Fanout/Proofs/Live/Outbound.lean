import Fanout.Proofs.Live.Agreement
import Fanout.Proofs.Live.Isolation
import Fanout.Proofs.Live.Stride

/-!
What a writer does with its sink, one operation after another. It offers frames until one of them
fails or it is told to close; only in the second case it says farewell. Then it closes the sink, and
nothing comes after that.
-/

namespace Fanout

/-- An event travels as text or as binary data. -/
def Frame.isData : Frame → Bool
  | text _ | binary _ => true
  | ping _ | pong _ | close _ => false

theorem Frame.Carries.isData {f : Frame} {body : Octets} (h : f.Carries body) : f.isData := by
  cases h <;> rfl

namespace Live

/-! ### What a writer is given -/

/-- What the queue gives to the writer in an act. A writer asks for a frame between two frames, unless
it is told to close. -/
def Connection.receipts (c : Connection) : Act → List Receipt
  | .write _ => if c.writer = .idle ∧ c.signalled = false then [c.receipt] else []
  | _ => []

theorem Connection.dropped_notMem_receipts (c : Connection) (a : Act) : .dropped ∉ c.receipts a := by
  cases a with
  | write now =>
    simp only [receipts]
    split
    · next asks =>
      have given : c.receipt ≠ .dropped := receipt_ne_dropped (by rw [asks.1]; rfl)
      simpa using given.symm
    · simp
  | _ => simp [receipts]

/-! ### Operations -/

/-- What a writer does with its sink. A frame from the queue is offered, and a fault is that it
failed or was late. -/
inductive Operation where
  | offer (f : Frame)
  | fault
  | farewell
  | close
deriving DecidableEq, Repr

namespace Writer

/-- What one action of a writer is to its sink. -/
def operations : Writer → Writer → List Operation
  | idle, sending f _ _ => [.offer f]
  | idle, farewell _ _ => [.farewell]
  | sending _ _ _, closing _ _ => [.fault, .close]
  | farewell _ _, closing _ _ => [.close]
  | _, _ => []

@[simp] theorem operations_self (w : Writer) : w.operations w = [] := by
  cases w <;> rfl

/-- What a writer has done since it left its loop. -/
def finale : Writer → List Operation
  | idle | sending _ _ _ => []
  | farewell _ _ => [.farewell]
  | closing .asked _ | finished .asked => [.farewell, .close]
  | closing .failed _ | finished .failed => [.fault, .close]

/-- How what a sink took fits to the frames offered to it: it lacks at most the last one, and has at
most the closing frame besides. -/
def Took (offered taken : List Frame) : Writer → Prop
  | idle | sending _ true _ | farewell false _ => taken = offered
  | sending f false _ => offered = taken ++ [f]
  | farewell true _ => taken = offered ++ [.close none]
  | closing .asked _ | finished .asked => taken = offered ∨ taken = offered ++ [.close none]
  | closing .failed _ | finished .failed => taken = offered ∨ ∃ f, offered = taken ++ [f]

variable {w : Writer} {offered taken : List Frame}

theorem finale_prefix (w : Writer) :
    w.finale <+: [.farewell, .close] ∨ w.finale <+: [.fault, .close] := by
  rcases w with _ | _ | _ | ⟨_ | _, d⟩ | _ | _ <;> simp [finale]

theorem isLooping_iff (w : Writer) : w.isLooping ↔ w.finale = [] := by
  rcases w with _ | _ | _ | ⟨_ | _, d⟩ | _ | _ <;> simp [isLooping, finale]

theorem finale_of_isFinished (h : w.isFinished) :
    w.finale = [.farewell, .close] ∨ w.finale = [.fault, .close] := by
  rcases w with _ | _ | _ | _ | _ | _ <;> simp [isFinished, finale] at h ⊢

theorem wasAsked_of_farewell_mem (h : .farewell ∈ w.finale) : w.wasAsked := by
  rcases w with _ | _ | _ | ⟨_ | _, d⟩ | _ | _ <;> simp [finale, wasAsked] at h ⊢

theorem Took.prefix_or (h : w.Took offered taken) :
    taken <+: offered ∨ .farewell ∈ w.finale ∧ taken = offered ++ [.close none] := by
  have asked (h : taken = offered ∨ taken = offered ++ [.close none]) :
      taken <+: offered ∨ .farewell ∈ [Operation.farewell, .close] ∧
        taken = offered ++ [.close none] := by
    rcases h with rfl | h
    · exact .inl List.prefix_rfl
    · exact .inr ⟨List.mem_cons_self, h⟩
  have failed (h : taken = offered ∨ ∃ f, offered = taken ++ [f]) : taken <+: offered := by
    rcases h with rfl | ⟨f, rfl⟩
    · exact List.prefix_rfl
    · exact List.prefix_append _ _
  rcases w with _ | ⟨f, _ | _, d⟩ | ⟨_ | _, d⟩ | ⟨_ | _, d⟩ | _ | _
  · exact .inl (failed (.inl h))
  · exact .inl (failed (.inr ⟨f, h⟩))
  · exact .inl (failed (.inl h))
  · exact .inl (failed (.inl h))
  · exact .inr ⟨List.mem_cons_self, h⟩
  · exact asked h
  · exact .inl (failed h)
  · exact asked h
  · exact .inl (failed h)

end Writer

namespace Connection

/-- What an act of the connection is to its sink. Only the writer's acts are anything to it. -/
def operations (t : Tuning) (c : Connection) (a : Act) : List Operation :=
  c.writer.operations (c.act t a).writer

variable {t : Tuning} {c d : Connection} {h : History}

theorem operations_of_ne_write {a : Act} (ha : ∀ now, a ≠ .write now) :
    c.operations t a = [] := by
  rw [operations, writer_act ha, Writer.operations_self]

/-- A sink remembers what was put into it. -/
theorem taken?_of_rules (hr : Rules t c h d) :
    d.sink.taken? = c.sink.taken?.map (· ++ h.put) := by
  refine hr.keep (P := fun g d => d.sink.taken? = c.sink.taken?.map (· ++ g.put)) ?_ (g := [])
    (by cases c.sink.taken? <;> simp [History.put])
  intro g c' h' d' hr hp
  cases hr with
  | take f d hw => simp [Sink.taken?_take, hp, Function.comp_def]
  | bid d hw => simp [Sink.taken?_take, hp, Function.comp_def]
  | outside sink watch hs => simpa [hs] using hp
  | _ => simpa [startClosing] using hp

theorem taken?_act {a : Act} (ha : ∀ now, a ≠ .write now) :
    (c.act t a).sink.taken? = c.sink.taken? := by
  have quiet : (c.incidents t a).put = [] := by
    have accepted (f : Frame) : (c.acceptance t f).put = [] := by
      unfold acceptance
      split <;> rfl
    have offered (body : Octets) (tag : Tenant) : (c.offering t body tag).put = [] := by
      unfold offering
      split
      · exact accepted _
      · rfl
    cases a with
    | deliver f => exact accepted f
    | broadcast body tag => exact offered body tag
    | hand b body =>
      have heard : History.put (if c.registered then [.heard b body] else []) = [] := by
        split <;> rfl
      simp only [incidents, handing, History.put_append, heard, List.nil_append]
      split
      · rfl
      · exact offered body _
    | write now => exact absurd rfl (ha now)
    | remove | read | behave _ | receive _ | cut | fetch => rfl
  rw [taken?_of_rules (rules_act t c a), quiet]
  cases c.sink.taken? <;> simp

/-- What stands in a queue stood there before or was accepted. -/
theorem mem_queue_of_rules (hr : Rules t c h d) {f : Frame} (hf : f ∈ d.queue) :
    f ∈ c.queue ∨ f ∈ h.accepted := by
  refine hr.keep (P := fun g d => ∀ f ∈ d.queue, f ∈ c.queue ∨ f ∈ g.accepted) ?_ (g := [])
    (fun f hf => .inl hf) f hf
  intro g c' h' d' hr hp f hf
  rw [History.accepted_append, List.mem_append, ← or_assoc]
  cases hr with
  | accept f' ha =>
    rcases List.mem_append.mp hf with hf | hf
    · exact .inl (hp f hf)
    · exact .inr (by simpa using hf)
  | begin f' rest d hw hs hq => exact .inl (hp f (hq ▸ List.mem_cons_of_mem f' hf))
  | remove => exact .inl (hp f (by simpa using hf))
  | finish ending d hw => exact .inl (hp f (by cases ending <;> simpa [finish] using hf))
  | _ => exact .inl (hp f hf)

/-- What is offered comes from the queue. -/
theorem mem_queue_of_offer {timeout now : Nat} (hs : Strides timeout now c d) {f : Frame}
    (hf : .offer f ∈ c.writer.operations d.writer) : f ∈ c.queue := by
  cases hs with
  | begin f' rest hw hsig hq =>
    obtain rfl : f = f' := by simpa [hw, Writer.operations] using hf
    exact hq ▸ List.mem_cons_self
  | _ => simp [*, startClosing, Writer.operations] at hf

end Connection

/-! ### Frames with data -/

/-- Whether only data is delivered by the act. -/
def Act.isData : Act → Bool
  | deliver f => f.isData
  | _ => true

theorem Act.isData_of_accepted {t : Tuning} {c : Connection} {a : Act} (ha : a.isData) {f : Frame}
    (hf : f ∈ (c.incidents t a).accepted) : f.isData := by
  cases a with
  | deliver f' =>
    simp only [Connection.incidents, Connection.acceptance] at hf
    split at hf
    · obtain rfl : f = f' := by simpa using hf
      exact ha
    · cases hf
  | broadcast body tag =>
    obtain ⟨-, rfl⟩ := Connection.accepted_offering hf
    exact (Frame.carries_ofBody body).isData
  | hand b body => exact (Connection.accepted_handing hf).2.1.isData
  | write now => simp [Connection.incidents, Connection.accepted_writing] at hf
  | remove | read | behave _ | receive _ | cut | fetch => cases hf

/-- Only data is queued, and only data was offered. -/
structure DataOnly (ops : List Operation) (c : Connection) : Prop where
  queued : ∀ f ∈ c.queue, f.isData
  offered : ∀ f, .offer f ∈ ops → f.isData

theorem DataOnly.act {t : Tuning} {ops : List Operation} {c : Connection} {a : Act}
    (ha : a.isData) (hd : DataOnly ops c) :
    DataOnly (ops ++ c.operations t a) (c.act t a) where
  queued := by
    intro f hf
    rcases Connection.mem_queue_of_rules (c.rules_act t a) hf with hf | hf
    · exact hd.queued f hf
    · exact Act.isData_of_accepted ha hf
  offered := by
    intro f hf
    rcases List.mem_append.mp hf with hf | hf
    · exact hd.offered f hf
    · by_cases hw : ∃ now, a = .write now
      · obtain ⟨now, rfl⟩ := hw
        rcases c.write_cases t now with ⟨-, hs⟩ | hs
        · simp [Connection.operations, Connection.act, hs] at hf
        · exact hd.queued f (Connection.mem_queue_of_offer hs hf)
      · rw [Connection.operations_of_ne_write fun now hn => hw ⟨now, hn⟩] at hf
        cases hf

theorem Service.allows_isData {moves : List Move} (hd : ∀ i f, .deliver i f ∈ moves → f.isData) :
    Allows (fun a => a.isData) moves := by
  intro m hm s i c a ha
  cases brings_of_mem_acts ha with
  | deliver f => exact hd i f hm
  | _ => rfl

/-! ### The whole stream -/

/-- The operations so far are the frames offered and what followed them, and the sink took these
frames. -/
structure Outbound (frames : List Frame) (ops : List Operation) (c : Connection) : Prop where
  shape : ops = frames.map .offer ++ c.writer.finale
  took : ∀ l, c.sink.taken? = some l → c.writer.Took frames l

namespace Outbound

variable {t : Tuning} {timeout now : Nat} {frames : List Frame} {ops : List Operation}
  {c d : Connection}

theorem new (who : Bearer) (sink : Sink) (watch : Option Watch) :
    Outbound [] [] { bearer := who, sink := sink.fresh, watch := watch } where
  shape := rfl
  took := by
    intro l hl
    rw [Sink.taken?_fresh, Option.map_eq_some_iff] at hl
    obtain ⟨p, -, rfl⟩ := hl
    rfl

/-- What leaves the writer alone and puts nothing into the sink. -/
theorem aside (ho : Outbound frames ops c) (hw : d.writer = c.writer)
    (hs : d.sink.taken? = c.sink.taken?) : Outbound frames ops d where
  shape := hw ▸ ho.shape
  took := by
    rw [hw, hs]
    exact ho.took

/-- Every action of the writer carries the stream on. -/
theorem stride (ho : Outbound frames ops c) (hs : Connection.Strides timeout now c d) :
    ∃ frames', Outbound frames' (ops ++ c.writer.operations d.writer) d := by
  obtain ⟨shape, took⟩ := ho
  cases hs with
  | begin f rest hw hsig hq =>
    rw [hw] at shape took ⊢
    refine ⟨frames ++ [f], by simp [shape, Writer.finale, Writer.operations], ?_⟩
    intro l hl
    exact congrArg (· ++ [f]) (took l hl).symm
  | take f e hw hr =>
    rw [hw] at shape took ⊢
    refine ⟨frames, by simp [shape, Writer.finale, Writer.operations], ?_⟩
    intro l hl
    rw [Sink.taken?_take, Option.map_eq_some_iff] at hl
    obtain ⟨l', hl', rfl⟩ := hl
    exact (took l' hl').symm
  | send f e hw hf =>
    rw [hw] at shape took ⊢
    exact ⟨frames, by simp [shape, Writer.finale, Writer.operations], took⟩
  | fail f taken e hw ha =>
    rw [hw] at shape took ⊢
    refine ⟨frames, by simp [shape, Writer.finale, Writer.operations, Connection.startClosing], ?_⟩
    intro l hl
    have held := took l (by simpa [Connection.startClosing] using hl)
    cases taken with
    | false => exact .inr ⟨f, held⟩
    | true => exact .inl held
  | heed hw hsig =>
    rw [hw] at shape took ⊢
    exact ⟨frames, by simp [shape, Writer.finale, Writer.operations], took⟩
  | bid e hw hr =>
    rw [hw] at shape took ⊢
    refine ⟨frames, by simp [shape, Writer.finale, Writer.operations], ?_⟩
    intro l hl
    rw [Sink.taken?_take, Option.map_eq_some_iff] at hl
    obtain ⟨l', hl', rfl⟩ := hl
    exact congrArg (· ++ [Frame.close none]) (took l' hl')
  | leave taken e hw =>
    rw [hw] at shape took ⊢
    refine ⟨frames, by simp [shape, Writer.finale, Writer.operations, Connection.startClosing], ?_⟩
    intro l hl
    have held := took l (by simpa [Connection.startClosing] using hl)
    cases taken with
    | false => exact .inl held
    | true => exact .inr held
  | finish sink ending e hw hsink =>
    rw [hw] at shape took ⊢
    refine ⟨frames, ?_, ?_⟩
    · cases ending <;> simp [shape, Writer.finale, Writer.operations]
    · intro l hl
      have kept : sink.taken? = c.sink.taken? := by rcases hsink with rfl | rfl <;> simp
      have held := took l (by simpa [kept] using hl)
      rw [Connection.writer_finish]
      cases ending <;> exact held

theorem act (ho : ∃ frames, Outbound frames ops c) (a : Act) :
    ∃ frames, Outbound frames (ops ++ c.operations t a) (c.act t a) := by
  obtain ⟨frames, ho⟩ := ho
  by_cases hw : ∃ now, a = .write now
  · obtain ⟨now, rfl⟩ := hw
    rcases c.write_cases t now with ⟨-, hs⟩ | hs
    · have same : c.act t (.write now) = c := hs
      rw [Connection.operations, same, Writer.operations_self, List.append_nil]
      exact ⟨frames, ho⟩
    · exact ho.stride hs
  · have ha (now : Nat) : a ≠ .write now := fun hn => hw ⟨now, hn⟩
    rw [Connection.operations_of_ne_write ha, List.append_nil]
    exact ⟨frames, ho.aside (Connection.writer_act ha c) (Connection.taken?_act ha)⟩

theorem of_run {moves : List Move} {i : Nat}
    (hc : ((Service.start t).after moves).connections[i]? = some c) :
    ∃ frames, Outbound frames
      ((Service.start t).journal (fun _ => Connection.operations t) i moves) c :=
  Service.run_journal_keep (P := fun ops c => ∃ frames, Outbound frames ops c)
    (fun who sink watch => ⟨[], new who sink watch⟩) (fun _ _ _ a _ ho => act ho a)
    (Service.allows_any moves) hc

end Outbound

/-! ### After the end -/

/-- A writer that has finished does nothing to its sink any more. -/
theorem Service.operations_of_isFinished {s : Service} {i : Nat} {c : Connection}
    (hc : s.connections[i]? = some c) (hf : c.writer.isFinished) (later : List Move) :
    s.journal (fun _ => Connection.operations s.tuning) i later = [] := by
  have keep (now : Nat) (ops : List Operation) (c : Connection) (a : Act) (_ : True)
      (hp : c.writer.isFinished ∧ ops = []) :
      (c.act s.tuning a).writer.isFinished ∧ ops ++ c.operations s.tuning a = [] := by
    have same : (c.act s.tuning a).writer = c.writer := by
      by_cases hw : ∃ now, a = .write now
      · obtain ⟨now, rfl⟩ := hw
        rcases c.write_cases s.tuning now with ⟨-, hs⟩ | hs
        · exact congrArg Connection.writer hs
        · rw [hs.isFinished] at hp
          cases hp.1
      · exact Connection.writer_act (fun now hn => hw ⟨now, hn⟩) c
    rw [Connection.operations, same, Writer.operations_self, List.append_nil]
    exact hp
  have idle : [] ++ s.journal (fun _ => Connection.operations s.tuning) i later = [] := by
    obtain ⟨-, -, -, hl⟩ := after_journal_keep
      (P := fun ops c => c.writer.isFinished ∧ ops = []) keep (allows_any later) (g := []) hc ⟨hf, rfl⟩
    exact hl
  exact idle

/-- In every run, whatever the sinks do and whenever connections are removed: what a writer does with
its sink is offering frames, then, if it was told to close and no frame failed, one farewell, then one
close, and nothing after that. A frame that fails or is late is the last one. The writer is in its loop
as long as it only offered frames, and its connection is closed when all is done. The frames are data
if only data was delivered, and the sink has taken them in this order, up to the last one. No writer
that asks its queue for a frame ever finds it dropped, so between two frames nothing but the signal
and the queue decides. -/
theorem outbound_well_formed (t : Tuning) (moves later : List Move) (i : Nat) (c : Connection)
    (hc : ((Service.start t).after moves).connections[i]? = some c) :
    let ops := (Service.start t).journal (fun _ => Connection.operations t) i moves
    (∃ frames tail, ops = frames.map .offer ++ tail ∧
      (tail <+: [.farewell, .close] ∨ tail <+: [.fault, .close]) ∧
      (c.writer.isLooping ↔ tail = []) ∧
      (c.stage = .closed → tail = [.farewell, .close] ∨ tail = [.fault, .close]) ∧
      ((∀ j f, .deliver j f ∈ moves → f.isData) → ∀ f ∈ frames, f.isData) ∧
      ∀ p, c.sink = .probe p →
        p.taken <+: frames ∨ .farewell ∈ tail ∧ p.taken = frames ++ [.close none]) ∧
      (.farewell ∈ ops → c.signalled ∧ c.registered = false) ∧
      (c.stage = .closed →
        ((Service.start t).after moves).journal (fun _ => Connection.operations t) i later = []) ∧
      .dropped ∉ (Service.start t).journal (fun _ => Connection.receipts) i moves ∧
      (c.writer = .idle → c.receipt ≠ .dropped ∧ ∀ timeout now, c.step? timeout now =
        if c.signalled then some { c with writer := .farewell false (now + timeout) }
        else c.queue.head?.map fun f =>
          { c with queue := c.queue.tail, writer := .sending f false (now + timeout) }) := by
  intro ops
  have coherent := Coherent.of_run hc
  obtain ⟨frames, shape, took⟩ := Outbound.of_run hc
  have shape : ops = frames.map .offer ++ c.writer.finale := shape
  refine ⟨⟨frames, c.writer.finale, shape, c.writer.finale_prefix, c.writer.isLooping_iff, ?_, ?_, ?_⟩,
    ?_, ?_, ?_, ?_⟩
  · exact fun hs => Writer.finale_of_isFinished (coherent.closed.mp hs)
  · intro hd f hf
    have only : DataOnly ops c :=
      Service.run_journal_keep (P := DataOnly) (fun who sink watch => ⟨nofun, nofun⟩)
        (fun _ _ _ _ ha hp => hp.act ha) (Service.allows_isData hd) hc
    exact only.offered f (by simp [shape, hf])
  · intro p hp
    exact (took p.taken (by simp [hp, Sink.taken?, Sink.probe?])).prefix_or
  · intro hf
    have said : .farewell ∈ c.writer.finale := by simpa [shape] using hf
    have signalled := coherent.asked (Writer.wasAsked_of_farewell_mem said)
    exact ⟨signalled, coherent.registered_eq_false signalled⟩
  · intro hs
    have none := Service.operations_of_isFinished hc (coherent.closed.mp hs) later
    rwa [Service.tuning_after] at none
  · refine Service.run_journal_keep (P := fun receipts _ => Receipt.dropped ∉ receipts)
      (fun who sink watch => List.not_mem_nil) ?_ (Service.allows_any moves) hc
    intro now receipts c a _ none
    rw [List.mem_append, not_or]
    exact ⟨none, c.dropped_notMem_receipts a⟩
  · intro hw
    exact ⟨Connection.receipt_ne_dropped (by rw [hw]; rfl), Connection.step?_idle hw⟩

/-- The connection is removed while its sink does not take a frame. When the sink goes on, it takes this
frame and the closing frame; the frame in the queue stays there. -/
theorem outbound_well_formed_removed :
    let who : Bearer := ⟨"u", ⟨"acme"⟩, .agent⟩
    let moves : List Move :=
      [.register who (.probe { accept := some 0 }) false, .deliver 0 (.text "a"),
        .deliver 0 (.text "b"), .turn (.writer 0), .remove 0, .behave 0 {}, .turn (.writer 0)]
    let later : List Move := [.deliver 0 (.text "c"), .turn (.writer 0)]
    let c : Connection :=
      { bearer := who, stage := .closed, registered := false, signalled := true,
        queue := [.text "b"], writer := .finished .asked,
        sink := .probe { taken := [.text "a", .close none], closed := true } }
    let s := (Service.start ⟨100, 16⟩).after moves
    let ops := (Service.start ⟨100, 16⟩).journal (fun _ => Connection.operations ⟨100, 16⟩) 0 moves
    s.connections[0]? = some c ∧ ops = [.offer (.text "a"), .farewell, .close] ∧ c.signalled ∧
      s.journal (fun _ => Connection.operations ⟨100, 16⟩) 0 later = [] := by
  intro who moves later c s ops
  have hc : s.connections[0]? = some c := by decide +kernel
  have hops : ops = [.offer (.text "a"), .farewell, .close] := by decide +kernel
  obtain ⟨-, asked, done, -⟩ := outbound_well_formed ⟨100, 16⟩ moves later 0 c hc
  have said : .farewell ∈ ops := by simp [hops]
  exact ⟨hc, hops, (asked said).1, done rfl⟩

end Live

end Fanout
