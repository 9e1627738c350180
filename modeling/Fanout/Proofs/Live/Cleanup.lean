import Fanout.Proofs.Live.Lifecycle
import Fanout.Proofs.Live.Listen
import Fanout.Proofs.Live.Registry

/-!
Why readers end. A reader ends because its client gave it something that ends reading, or because
somebody else took its connection off the registry; and as soon as it has looked at what there is, it
has ended if there was either. Whatever ended it, it leaves the connection unregistered, its attempt
closed and one record in the log.
-/

namespace Fanout.Live

/-! ### Who is to blame -/

/-- The calls for the removal of a connection. As long as the reader goes on, none of them was its
own; if it was dropped, somebody else's call did it. -/
structure Blamed (g : List Removal) (c : Connection) : Prop where
  called : Called g c
  coherent : Coherent c
  others : c.readEnd? = none → ∀ x ∈ g, x.origin ≠ .reader
  dropped : c.readEnd? = some .dropped → ∃ x ∈ g, x.done ∧ x.origin ≠ .reader

/-- A reason for which a reader ends that was not dropped is given by an item or by a cut. -/
def Prompted (g : List Act) (r : ReadEnd) : Prop :=
  r = .dropped ∨ (∃ item, .receive item ∈ g ∧ item.readEnd? = some r) ∨ r = .readError ∧ .cut ∈ g

theorem Prompted.append {g : List Act} {r : ReadEnd} (h : Prompted g r) (a : Act) :
    Prompted (g ++ [a]) r := by
  rcases h with dropped | ⟨item, given, ends⟩ | ⟨error, cut⟩
  · exact .inl dropped
  · exact .inr (.inl ⟨item, List.mem_append_left _ given, ends⟩)
  · exact .inr (.inr ⟨error, List.mem_append_left _ cut⟩)

/-- What the client did. As long as the reader goes on, what ends reading still stands before it; and
if it has ended without being dropped, the client gave it the reason. -/
structure Informed (g : List Act) (c : Connection) : Prop where
  cut : c.sink.isWhole = false → .cut ∈ g
  kept : ∀ w, c.watch = some w → w.ended = none →
    ∀ item, item.readEnd?.isSome → (item ∈ w.inbound ↔ .receive item ∈ g)
  reason : ∀ r, c.readEnd? = some r → Prompted g r

namespace Connection

variable {t : Tuning} {i : Nat} {c : Connection} {a : Act}

/-- The calls for a removal that are not the reader's own. -/
theorem origin_of_mem_removals {x : Removal} (hr : a ≠ .read) (hx : x ∈ c.removals t i a) :
    x.origin ≠ .reader := by
  have evicted {tag : Tenant} (hx : x ∈ c.eviction t i tag) : x.origin ≠ .reader := by
    rw [eviction] at hx
    split at hx
    · rw [List.mem_singleton.mp hx]
      simp
    · cases hx
  cases a with
  | remove =>
    rw [List.mem_singleton.mp hx]
    simp
  | broadcast body tag => exact evicted hx
  | hand b body =>
    rw [removals] at hx
    split at hx
    · cases hx
    · exact evicted hx
  | write now =>
    rw [removals] at hx
    split at hx
    · rw [List.mem_singleton.mp hx]
      simp
    · cases hx
  | read => exact absurd rfl hr
  | deliver f => cases hx
  | behave q => cases hx
  | receive item => cases hx
  | cut => cases hx
  | fetch => cases hx

end Connection

namespace Blamed

variable {g : List Removal} {c : Connection}

theorem act (h : Blamed g c) (t : Tuning) (i : Nat) (a : Act) :
    Blamed (g ++ c.removals t i a) (c.act t a) where
  called := h.called.act a
  coherent := h.coherent.act t a
  others := by
    intro hn x hx
    have before := Connection.readEnd?_eq_none_of_act hn
    rcases List.mem_append.mp hx with hx | hx
    · exact h.others before x hx
    · by_cases hr : a = .read
      · subst hr
        have on : c.read.readEnd? = none := hn
        simp [Connection.removals, on] at hx
      · exact Connection.origin_of_mem_removals hr hx
  dropped := by
    intro hd
    cases before : c.readEnd? with
    | some reason =>
      have same := Connection.readEnd?_act_of_eq_some (t := t) before a
      obtain rfl := Option.some.inj (same.symm.trans hd)
      obtain ⟨x, hx, blame⟩ := h.dropped before
      exact ⟨x, List.mem_append_left _ hx, blame⟩
    | none =>
      obtain ⟨-, w, hw, he, hr⟩ := Connection.endsFor_of_act before hd
      cases hr with
      | dropped hs =>
        have gone : true ∈ g.map Removal.done :=
          h.called.true_mem_iff.mpr (h.coherent.registered_eq_false hs)
        obtain ⟨x, hx, done⟩ := List.mem_map.mp gone
        exact ⟨x, List.mem_append_left _ hx, done, h.others before x hx⟩
      | item item hi hr => exact absurd hr item.readEnd?_ne_dropped

end Blamed

namespace Informed

variable {g : List Act} {c d : Connection}

/-- What the client has no part in makes no difference to the reader. -/
theorem aside (h : Informed g c) {a : Act} (hi : ∀ item, a ≠ .receive item)
    (watch : d.watch = c.watch) (whole : d.sink.isWhole = false → .cut ∈ g ++ [a]) :
    Informed (g ++ [a]) d where
  cut := whole
  kept := by
    intro w hw he item ends
    have other : .receive item ∈ g ++ [a] ↔ .receive item ∈ g := by simp [Ne.symm (hi item)]
    rw [other]
    exact h.kept w (watch ▸ hw) he item ends
  reason := by
    intro r hr
    rw [Connection.readEnd?, watch] at hr
    exact (h.reason r hr).append a

/-- A reader that goes on has nothing before it that ends reading, so it was given nothing such. One
that ends has its reason from what was before it. -/
theorem reads (h : Informed g c) (hr : Connection.Reads c d) : Informed (g ++ [.read]) d := by
  cases hr with
  | idle => exact h.aside nofun rfl fun cut => List.mem_append_left _ (h.cut cut)
  | goOn w sink hw he hs hi hl =>
    constructor
    · intro cut
      exact List.mem_append_left _ (h.cut (hl ▸ cut))
    · intro w' hw' _ item ends
      obtain rfl := Option.some.inj hw'
      have absent : item ∉ w.inbound := by
        intro there
        rw [hi item there] at ends
        cases ends
      have given := h.kept w hw he item ends
      simpa [given] using absent
    · intro r hr
      have on : w.ended = some r := hr
      rw [he] at on
      cases on
  | stop w sink rest reason hw he hr hl =>
    constructor
    · intro cut
      rw [Connection.stopReading, Connection.sink_remove] at cut
      exact List.mem_append_left _ (h.cut (hl ▸ cut))
    · intro w' hw' he'
      rw [Connection.watch_stopReading] at hw'
      obtain rfl := Option.some.inj hw'
      cases he'
    · intro r hr'
      rw [Connection.readEnd?_stopReading] at hr'
      obtain rfl := Option.some.inj hr'
      cases hr with
      | dropped hs => exact .inl rfl
      | item item hi ends =>
        have given := (h.kept w hw he item (by rw [ends]; rfl)).mp hi
        exact .inr (.inl ⟨item, List.mem_append_left _ given, ends⟩)
      | cut whole => exact .inr (.inr ⟨rfl, List.mem_append_left _ (h.cut whole)⟩)

theorem hear (h : Informed g c) (item : Inbound) :
    Informed (g ++ [.receive item]) (c.hear item) where
  cut := fun cut => List.mem_append_left _ (h.cut cut)
  kept := by
    intro w' hw' he other ends
    obtain ⟨w, hw, rfl⟩ := Option.map_eq_some_iff.mp hw'
    have before := h.kept w hw he other ends
    simp [before]
  reason := by
    intro r hr
    rw [c.readEnd?_hear item] at hr
    exact (h.reason r hr).append _

theorem act (h : Informed g c) (t : Tuning) (a : Act) : Informed (g ++ [a]) (c.act t a) := by
  obtain rfl | ⟨item, rfl⟩ | rfl | ⟨-, hi, aside⟩ := Connection.act_cases t a c
  · exact h.reads c.reads
  · exact h.hear item
  · exact h.aside nofun rfl fun _ => List.mem_append_right _ List.mem_cons_self
  · refine h.aside hi aside.watch fun cut => List.mem_append_left _ (h.cut ?_)
    rwa [← aside.whole]

end Informed

/-! ### In a run -/

/-- An item that the client sends. -/
def Act.item? : Act → Option Inbound
  | receive item => some item
  | _ => none

namespace Service

variable {s : Service} {t : Tuning} {i : Nat} {moves : List Move} {c : Connection}

/-- All that befell a connection in the course of a run. -/
def deeds (s : Service) (i : Nat) (moves : List Move) : List Act :=
  s.journal (fun _ _ a => [a]) i moves

/-- What the client sent. -/
def sent (s : Service) (i : Nat) (moves : List Move) : List Inbound :=
  (s.deeds i moves).filterMap Act.item?

theorem mem_sent_iff {item : Inbound} :
    item ∈ s.sent i moves ↔ .receive item ∈ s.deeds i moves := by
  rw [sent, List.mem_filterMap]
  constructor
  · rintro ⟨a, ha, said⟩
    cases a with
    | receive other =>
      obtain rfl := Option.some.inj said
      exact ha
    | _ => cases said
  · intro given
    exact ⟨_, given, rfl⟩

theorem deeds_cons (m : Move) (rest : List Move) :
    s.deeds i (m :: rest) =
      (s.connections[i]?.map fun c => s.acts i c m).getD [] ++ (s.perform m).deeds i rest := by
  have all (t : Tuning) (l : List Act) (c : Connection) : c.journal (fun _ a => [a]) t l = l := by
    induction l generalizing c with
    | nil => rfl
    | cons a rest ih => rw [Connection.journal, ih, List.singleton_append]
  rw [deeds, journal, entries, deeds]
  cases s.connections[i]? with
  | none => rfl
  | some c =>
    simp only [all, Option.map_some, Option.getD_some]

/-- A client that is cut off leaves an error behind. -/
theorem error_mem_deeds (h : .cut ∈ s.deeds i moves) : .receive .error ∈ s.deeds i moves := by
  induction moves generalizing s with
  | nil => cases h
  | cons m rest ih =>
    rw [deeds_cons, List.mem_append] at h ⊢
    rcases h with here | later
    · left
      cases hc : s.connections[i]? with
      | none => simp [hc] at here
      | some c =>
        rw [hc, Option.map_some, Option.getD_some] at here
        cases brings_of_mem_acts here
        simp [acts]
    · exact .inr (ih later)

theorem blamed_of_run (hc : ((start t).after moves).connections[i]? = some c) :
    Blamed (((start t).removals moves).filter (·.target = some i)) c := by
  rw [filter_removals]
  refine run_journal_keep_opened ?_ (fun _ _ _ a _ h => h.act t i a) (allows_any moves) hc
  intro who sink reads
  refine ⟨⟨fun _ => rfl, nofun⟩, .new who sink _, fun _ => nofun, ?_⟩
  cases reads <;> nofun

theorem informed_of_run (hc : ((start t).after moves).connections[i]? = some c) :
    Informed ((start t).deeds i moves) c := by
  refine run_journal_keep_opened ?_ (fun _ _ _ a _ h => h.act t a) (allows_any moves) hc
  intro who sink reads
  refine ⟨?_, ?_, ?_⟩
  · intro cut
    rw [Sink.isWhole_fresh] at cut
    cases cut
  · intro w hw _ item _
    cases reads with
    | true =>
      obtain rfl := Option.some.inj hw
      simp [Watch.begin]
    | false => cases hw
  · intro r hr
    cases reads <;> cases hr

/-- Somebody other than the reader took the connection off the registry. -/
def OustedBy (calls : List Removal) (i : Nat) : Prop :=
  ∃ x ∈ calls, x.target = some i ∧ x.done ∧ x.origin ≠ .reader

theorem oustedBy_iff (calls : List Removal) (i : Nat) :
    OustedBy calls i ↔ ∃ x ∈ calls.filter (·.target = some i), x.done ∧ x.origin ≠ .reader := by
  simp [OustedBy, and_assoc]

/-- Whatever ends a reader comes from its client or from somebody who removed the connection. -/
theorem reason_of_run (hc : ((start t).after moves).connections[i]? = some c) {r : ReadEnd}
    (hr : c.readEnd? = some r) :
    r = .dropped ∧ OustedBy ((start t).removals moves) i ∨
      ∃ item ∈ (start t).sent i moves, item.readEnd? = some r := by
  rcases (informed_of_run hc).reason r hr with rfl | ⟨item, given, ends⟩ | ⟨rfl, cut⟩
  · left
    exact ⟨rfl, (oustedBy_iff _ i).mpr ((blamed_of_run hc).dropped hr)⟩
  · right
    exact ⟨item, mem_sent_iff.mpr given, ends⟩
  · right
    exact ⟨.error, mem_sent_iff.mpr (error_mem_deeds cut), rfl⟩

/-- Nobody took a connection off the registry that is still there. -/
theorem not_oustedBy_of_registered (hc : ((start t).after moves).connections[i]? = some c)
    (hr : c.registered) : ¬ OustedBy ((start t).removals moves) i := by
  rw [oustedBy_iff]
  rintro ⟨x, hx, done, -⟩
  have gone : c.registered = false :=
    (blamed_of_run hc).called.true_mem_iff.mp (List.mem_map.mpr ⟨x, hx, done⟩)
  rw [hr] at gone
  cases gone

/-- A reader that is not ready and goes on was given nothing that ends reading, and its connection is
still there. -/
theorem goesOn_of_run (hc : ((start t).after moves).connections[i]? = some c) {w : Watch}
    (hw : c.watch = some w) (he : w.ended = none)
    (hr : .reader i ∉ ((start t).after moves).ready) :
    c.registered ∧ ∀ item ∈ (start t).sent i moves, item.readEnd? = none := by
  have listens : c.Listens := (((heard_start t).after moves) i c hc).resolve_left hr
  obtain ⟨unsignalled, empty⟩ := listens w hw he
  constructor
  · rw [(blamed_of_run hc).coherent.signalled, unsignalled]
    rfl
  · intro item given
    cases ends : item.readEnd? with
    | none => rfl
    | some r =>
      have waits := ((informed_of_run hc).kept w hw he item (by rw [ends]; rfl)).mpr
        (mem_sent_iff.mp given)
      rw [empty] at waits
      cases waits

/-- A reader that is not ready has ended just if it was given a reason to. -/
theorem ended_iff_of_run (hc : ((start t).after moves).connections[i]? = some c) {w : Watch}
    (hw : c.watch = some w) (hr : .reader i ∉ ((start t).after moves).ready) :
    (w.ended.isSome ↔ (∃ item ∈ (start t).sent i moves, item.readEnd?.isSome) ∨
      OustedBy ((start t).removals moves) i) ∧ (w.ended.isSome ↔ c.registered = false) := by
  cases he : w.ended with
  | some r =>
    have ended : c.readEnd? = some r := (Connection.readEnd?_of_watch hw).trans he
    have left : c.registered = false := (lived_of_run hc).left (by rw [ended]; rfl)
    refine ⟨iff_of_true rfl ?_, iff_of_true rfl left⟩
    rcases reason_of_run hc ended with ⟨-, ousted⟩ | ⟨item, given, ends⟩
    · exact .inr ousted
    · exact .inl ⟨item, given, by rw [ends]; rfl⟩
  | none =>
    obtain ⟨stays, quiet⟩ := goesOn_of_run hc hw he hr
    refine ⟨iff_of_false nofun ?_, iff_of_false nofun (by rw [stays]; exact nofun)⟩
    rintro (⟨item, given, ends⟩ | ousted)
    · rw [quiet item given] at ends
      cases ends
    · exact not_oustedBy_of_registered hc stays ousted

end Service

end Fanout.Live
