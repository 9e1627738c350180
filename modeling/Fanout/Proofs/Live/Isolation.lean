import Fanout.Proofs.Live.Order

/-!
What a connection is sent when events enter only through bridges. Every frame in a queue carries a
body that a bridge was handed while the connection was registered, and that was meant for it. The
queue is the only way into the sink, so the same is true of every frame that the sink took.
-/

namespace Fanout

/-- The frame carries the bytes of a body: as text if they are UTF-8, else as they are. -/
inductive Frame.Carries : Frame → Octets → Prop where
  | text (s : String) : Carries (.text s) (Octets.ofText s)
  | binary (body : Octets) (h : ∀ s, Octets.ofText s ≠ body) : Carries (.binary body) body

theorem Frame.carries_ofBody (body : Octets) : (ofBody body).Carries body := by
  unfold ofBody
  split
  · next s h =>
    rw [← Octets.ofText_of_text?_eq_some h]
    exact .text s
  · next h =>
    refine .binary body ?_
    rintro s rfl
    rw [Octets.text?_ofText] at h
    cases h

/-- A frame carries one body. -/
theorem Frame.Carries.payload_eq {f : Frame} {body : Octets} (h : f.Carries body) :
    f.payload = body := by
  cases h <;> rfl

/-- A tag that counts is not empty. -/
theorem Event.Scope.isEmpty_of_ofOctets {body : Octets} {tag : Tenant}
    (h : ofOctets body = .tenant tag) : tag.isEmpty = false := by
  unfold ofOctets at h
  split at h
  · next v _ =>
    unfold ofValue at h
    split at h
    · unfold ofMember? at h
      split at h
      · cases h
      · split at h
        · cases h
        · next hs =>
          cases h
          simpa [Tenant.isEmpty] using hs
      · cases h
    · cases h
  · cases h

namespace Live

/-- A body handed to the bridge is meant for the holders of its tag, or, if it has none and the
bridge broadcasts such bodies, for everybody. -/
inductive Bridge.Means (b : Bridge) (body : Octets) (holder : Tenant) : Prop where
  | tagged (h : Event.Scope.ofOctets body = .tenant holder)
  | untagged (reason : Event.UntaggedReason) (h : Event.Scope.ofOctets body = .untagged reason)
      (hp : b.policy = .broadcast)

/-- The tag under which a body is handed on reaches those that the body is meant for. -/
theorem Bridge.means_iff (b : Bridge) (body : Octets) (holder : Tenant) :
    b.Means body holder ↔ ∃ tag, b.audience? body = some tag ∧ tag.reaches holder := by
  constructor
  · rintro (h | ⟨reason, h, hp⟩)
    · exact ⟨holder, by simp [audience?, h], by simp [Tenant.reaches]⟩
    · exact ⟨.empty, by simp [audience?, h, hp], rfl⟩
  · rintro ⟨tag, ha, hr⟩
    unfold audience? at ha
    split at ha
    · next h =>
      cases ha
      have he := Event.Scope.isEmpty_of_ofOctets h
      have ht : holder = tag := by simpa [Tenant.reaches, he] using hr
      exact .tagged (ht ▸ h)
    · next reason h =>
      split at ha
      · cases ha
      · next hp => exact .untagged reason h hp

/-- Whether events enter by this act only through a bridge, if at all. -/
def Act.isBridged : Act → Bool
  | deliver _ | broadcast _ _ => false
  | _ => true

/-- The bridge that hands a body over. -/
def Act.bridge? : Act → Option Bridge
  | hand b _ => some b
  | _ => none

namespace Connection

variable {t : Tuning} {c : Connection}

theorem accepted_offering {body : Octets} {tag : Tenant} {f : Frame}
    (hf : f ∈ History.accepted (c.offering t body tag)) :
    c.isTarget tag ∧ f = Frame.ofBody body := by
  unfold offering at hf
  split at hf
  · next ht =>
    unfold acceptance at hf
    split at hf
    · exact ⟨ht, by simpa using hf⟩
    · cases hf
  · cases hf

/-- A body handed to a bridge is accepted only if it is meant for the connection and heard by it. -/
theorem accepted_handing {b : Bridge} {body : Octets} {f : Frame}
    (hf : f ∈ History.accepted (c.handing t b body)) :
    .heard b body ∈ c.handing t b body ∧ f.Carries body ∧ b.Means body c.bearer.tenant := by
  unfold handing at hf ⊢
  have heard : History.accepted (if c.registered then [.heard b body] else []) = [] := by
    split <;> rfl
  rw [History.accepted_append, heard, List.nil_append] at hf
  cases ha : b.audience? body with
  | none => simp [ha, History.accepted] at hf
  | some tag =>
    rw [ha] at hf
    obtain ⟨ht, rfl⟩ := accepted_offering hf
    obtain ⟨hr, ht⟩ : c.registered ∧ tag.reaches c.bearer.tenant := by simpa [isTarget] using ht
    refine ⟨by simp [hr], Frame.carries_ofBody body, ?_⟩
    exact (b.means_iff body c.bearer.tenant).mpr ⟨tag, ha, ht⟩

theorem accepted_writing (now : Nat) : History.accepted (c.writing now) = [] := by
  unfold writing
  split
  · split <;> rfl
  · split <;> rfl
  · split <;> rfl
  · rfl

end Connection

/-- Every frame that was accepted carries a body that was heard and was meant for the connection. -/
def History.Meant (h : History) (c : Connection) : Prop :=
  ∀ f ∈ h.accepted, ∃ b body, .heard b body ∈ h ∧ f.Carries body ∧ b.Means body c.bearer.tenant

/-- Acts through which events enter only from bridges keep this. -/
theorem History.Meant.act {t : Tuning} (g : History) (c : Connection) (a : Act)
    (ha : a.isBridged) (hg : g.Meant c) : (g ++ c.incidents t a).Meant (c.act t a) := by
  have hb : (c.act t a).bearer = c.bearer := Connection.bearer_of_rules (c.rules_act t a)
  intro f hf
  rw [hb]
  rw [History.accepted_append, List.mem_append] at hf
  rcases hf with hf | hf
  · obtain ⟨b, body, hh, hm⟩ := hg f hf
    exact ⟨b, body, List.mem_append_left _ hh, hm⟩
  · cases a with
    | deliver f => cases ha
    | broadcast body tag => cases ha
    | hand b body =>
      obtain ⟨hh, hm⟩ := Connection.accepted_handing hf
      exact ⟨b, body, List.mem_append_right _ hh, hm⟩
    | write now =>
      rw [Connection.incidents, Connection.accepted_writing] at hf
      cases hf
    | _ => cases hf

/-! ### Where bodies come from -/

theorem Connection.act_of_heard {t : Tuning} {b : Bridge} {body : Octets} {c : Connection}
    {l : List Act} (h : .heard b body ∈ c.history t l) : ∃ a ∈ l, a.bridge? = some b := by
  have accepted (c : Connection) (f : Frame) : .heard b body ∉ c.acceptance t f := by
    unfold acceptance
    split <;> simp
  have offered (c : Connection) (x : Octets) (tag : Tenant) :
      .heard b body ∉ c.offering t x tag := by
    unfold offering
    split
    · exact accepted c _
    · simp
  induction l generalizing c with
  | nil => cases h
  | cons a rest ih =>
    rw [history, List.mem_append] at h
    rcases h with h | h
    · cases a with
      | deliver f => exact absurd h (accepted c f)
      | broadcast x tag => exact absurd h (offered c x tag)
      | hand b' x =>
        simp only [incidents, handing, List.mem_append] at h
        rcases h with h | h
        · split at h
          · cases List.mem_singleton.mp h
            exact ⟨_, List.mem_cons_self, rfl⟩
          · cases h
        · split at h
          · cases h
          · exact absurd h (offered c x _)
      | write now =>
        simp only [incidents, writing] at h
        split at h
        · split at h <;> simp at h
        · split at h <;> simp at h
        · split at h <;> simp at h
        · cases h
      | _ => cases h
    · obtain ⟨a', ha, hb⟩ := ih h
      exact ⟨a', List.mem_cons_of_mem a ha, hb⟩

namespace Service

/-- The acts of a bridged move are bridged. A bridge that hands a body over at a move runs already
or is brought into play by it. -/
theorem acts_cases {s : Service} {i : Nat} {c : Connection} {m : Move} {a : Act}
    (h : a ∈ s.acts i c m) :
    (m.isBridged → a.isBridged) ∧
      ∀ b, a.bridge? = some b → b ∈ s.spawned ∨ m.bridge? = some b := by
  cases brings_of_mem_acts h with
  | deliver f => exact ⟨nofun, nofun⟩
  | broadcast body tag => exact ⟨nofun, nofun⟩
  | hand b body => exact ⟨fun _ => rfl, fun b' hb => .inr hb⟩
  | play b broker body hbody => exact ⟨fun _ => rfl, fun b' hb => .inr hb⟩
  | stream j r body hr hbody =>
    have hs : r.bridge ∈ s.spawned := List.mem_map_of_mem (List.mem_of_getElem? hr)
    exact ⟨fun _ => rfl, fun b hb => .inl (Option.some.inj hb ▸ hs)⟩
  | remove | behave _ | receive _ | cut | fault | fetch | write | read =>
    exact ⟨fun _ => rfl, nofun⟩

theorem allows_bridged {moves : List Move} (hm : ∀ m ∈ moves, m.isBridged) :
    Allows (fun a => a.isBridged) moves :=
  fun m hmem _ _ _ _ ha => (acts_cases ha).1 (hm m hmem)

/-- A body is heard only through a bridge that the run brought into play. -/
theorem bridge_of_heard {s : Service} {i : Nat} {moves : List Move} {b : Bridge} {body : Octets}
    (h : .heard b body ∈ s.history i moves) :
    b ∈ s.spawned ∨ ∃ m ∈ moves, m.bridge? = some b := by
  induction moves generalizing s with
  | nil => cases h
  | cons m rest ih =>
    rw [history, List.mem_append] at h
    have now (hm : b ∈ s.spawned ∨ m.bridge? = some b) :
        b ∈ s.spawned ∨ ∃ m' ∈ m :: rest, m'.bridge? = some b :=
      hm.imp_right fun hb => ⟨m, List.mem_cons_self, hb⟩
    rcases h with h | h
    · unfold incidents at h
      split at h
      · cases h
      · obtain ⟨a, ha, hb⟩ := Connection.act_of_heard h
        exact now ((acts_cases ha).2 b hb)
    · rcases ih h with hs | ⟨m', hm, hb⟩
      · exact now ((s.perform_spec m).2 b hs)
      · exact .inr ⟨m', List.mem_cons_of_mem m hm, hb⟩

end Service

/-- If events enter only through bridges, then in every run every frame that a sink took, the
writer's closing frame apart, carries a body that a bridge was handed while the connection was
registered, and that was meant for it. So no body under another tenant's tag is among them, and if
all bridges drop what has no tag, a connection whose tenant is empty takes nothing. -/
theorem only_meant_bodies_taken (t : Tuning) (moves : List Move) (i : Nat) (c : Connection)
    (hb : ∀ m ∈ moves, m.isBridged)
    (hc : ((Service.start t).after moves).connections[i]? = some c) :
    let h := (Service.start t).history i moves
    (∀ p, c.sink = .probe p → p.taken = h.put) ∧
      (∀ f ∈ h.put, f ≠ .close none →
        ∃ b body, .heard b body ∈ h ∧ f.Carries body ∧ b.Means body c.bearer.tenant) ∧
      (∀ f ∈ h.put, ∀ body tag, f.Carries body → Event.Scope.ofOctets body = .tenant tag →
        tag = c.bearer.tenant) ∧
      ((∀ m ∈ moves, ∀ b, m.bridge? = some b → b.policy = .drop) → c.bearer.tenant.isEmpty →
        ∀ f ∈ h.put, f = .close none) := by
  intro h
  have hl : Ledger h c := Ledger.of_run hc
  have hm : h.Meant c := Service.run_keep (P := History.Meant)
    (fun _ _ _ => nofun) (History.Meant.act (t := t)) (Service.allows_bridged hb) hc
  have meant : ∀ f ∈ h.put, f ≠ .close none →
      ∃ b body, .heard b body ∈ h ∧ f.Carries body ∧ b.Means body c.bearer.tenant := by
    intro f hf hn
    have ht : f ∈ h.taken := by
      rcases hl.closed with hp | hp
      · rwa [← hp]
      · rw [hp, List.mem_append, List.mem_singleton] at hf
        exact hf.resolve_right hn
    exact hm f (hl.inOrder.subset ht)
  refine ⟨?_, meant, ?_, ?_⟩
  · intro p hp
    exact hl.kept p.taken (by simp [hp, Sink.taken?, Sink.probe?])
  · intro f hf body tag hcarries htag
    obtain ⟨b, body', -, hcarries', hmeans⟩ := meant f hf (by rintro rfl; cases hcarries)
    obtain rfl : body = body' := hcarries.payload_eq.symm.trans hcarries'.payload_eq
    rcases hmeans with h' | ⟨reason, h', -⟩
    · rw [htag] at h'
      exact Event.Scope.tenant.inj h'
    · rw [htag] at h'
      cases h'
  · intro hd he f hf
    refine Decidable.byContradiction fun hn => ?_
    obtain ⟨b, body, hh, -, hmeans⟩ := meant f hf hn
    rcases hmeans with h' | ⟨reason, -, hp⟩
    · rw [Event.Scope.isEmpty_of_ofOctets h'] at he
      cases he
    · rcases Service.bridge_of_heard hh with hs | ⟨m, hm, hb⟩
      · cases hs
      · rw [hd m hm b hb] at hp
        cases hp

/-- A body under one tenant's tag, and a connection of that tenant next to one of another. -/
theorem only_meant_bodies_taken_tagged :
    let who : Bearer := ⟨"u", ⟨"acme"⟩, .agent⟩
    let other : Bearer := ⟨"v", ⟨"globex"⟩, .agent⟩
    let text := "\x7b\"tenant_id\":\"acme\"\x7d"
    let moves : List Move :=
      [.register who (.probe {}) false, .register other (.probe {}) false,
        .hand {} (Octets.ofText text), .turn (.writer 0), .turn (.writer 1)]
    let c : Connection := { bearer := who, sink := .probe { taken := [.text text] } }
    let d : Connection := { bearer := other, sink := .probe {} }
    let h := (Service.start {}).history 0 moves
    ((Service.start {}).after moves).connections = [c, d] ∧ h.put = [.text text] ∧
      ∃ b body, .heard b body ∈ h ∧ (Frame.text text).Carries body ∧ b.Means body who.tenant := by
  intro who other text moves c d h
  have hs : ((Service.start {}).after moves).connections = [c, d] := by decide +kernel
  have hp : h.put = [.text text] := by decide +kernel
  have hc : ((Service.start {}).after moves).connections[0]? = some c := by rw [hs]; rfl
  have hb : ∀ m ∈ moves, m.isBridged := by decide +kernel
  refine ⟨hs, hp, ?_⟩
  exact (only_meant_bodies_taken {} moves 0 c hb hc).2.1 _ (by rw [hp]; simp) nofun

end Live

end Fanout
