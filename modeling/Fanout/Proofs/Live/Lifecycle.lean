import Fanout.Proofs.Live.Reading
import Fanout.Proofs.Live.Removal

/-!
The life of a connection with a client behind it. Its attempt goes through all phases in order, each
step being legal. It reads until its reader ends, which takes the connection off the registry, closes
the attempt and is logged once.
-/

namespace Fanout

namespace Attempt

/-! ### Steps of an attempt -/

/-- What is done with an attempt: it is given its session, or moved to a phase, which is legal or
not. -/
inductive Step where
  | bind (session : Nat)
  | move (next : Phase) (legal : Bool)
deriving DecidableEq, Repr

/-- The moves through phases, each with its outcome. -/
def steps (a : Attempt) : List Phase → List Step
  | [] => []
  | p :: rest => .move p (a.moveTo p).1 :: (a.moveTo p).2.steps rest

end Attempt

namespace Live

open Attempt (Step)

/-- The steps by which an accepted attempt comes to read. -/
def Watch.opening (session : Nat) : List Step :=
  let upgraded := Attempt.moveThrough { number := session } [.authenticated, .upgraded]
  Attempt.steps { number := session } [.authenticated, .upgraded] ++
    .bind session :: (upgraded.withSession session).steps [.registered, .reading]

/-- The steps by which a reader that has ended brings its attempt to an end. -/
def Watch.parting (w : Watch) : List Step := w.attempt.steps [.closing, .closed]

namespace Connection

/-- Whether a reader went on before and has ended now. -/
def parts (c d : Connection) : Bool := c.readEnd?.isNone && d.readEnd?.isSome

/-- The steps of the attempt when something befalls the connection. -/
def partings (c d : Connection) : List Step :=
  if c.parts d then (c.watch.map Watch.parting).getD [] else []

/-- What is logged of a reader's end. -/
def farewell (c : Connection) (reason : ReadEnd) : LogRecord :=
  { message := Service.closingMessage, reason := reason.name, user := some c.bearer.user }

variable {t : Tuning} {c d : Connection}

theorem parts_of_eq (h : d.readEnd? = c.readEnd?) : c.parts d = false := by
  rw [parts, h]
  cases c.readEnd? <;> rfl

end Connection

/-- An attempt under its number, with the steps that it has made since it began to read. -/
structure Lived (i : Nat) (g : List Step) (c : Connection) : Prop where
  attempt : ∀ w, c.watch = some w →
    w.attempt = ⟨i, some i, if w.ended.isSome then .closed else .reading⟩
  steps : ∀ w, c.watch = some w →
    g = if w.ended.isSome then [.move .closing true, .move .closed true] else []
  left : c.readEnd?.isSome → c.registered = false

namespace Lived

variable {t : Tuning} {i : Nat} {g : List Step} {c d : Connection}

theorem opened (who : Bearer) (sink : Sink) (reads : Bool) :
    Lived i [] { bearer := who, sink := sink.fresh,
                 watch := if reads then some (Watch.begin i) else none } where
  attempt := by
    intro w hw
    cases reads with
    | true =>
      obtain rfl := Option.some.inj hw
      rfl
    | false => cases hw
  steps := by
    intro w hw
    cases reads with
    | true =>
      obtain rfl := Option.some.inj hw
      rfl
    | false => cases hw
  left := by
    intro he
    cases reads <;> cases he

/-- Where the reader does not end, nothing is done with the attempt. -/
theorem keep (h : Lived i g c)
    (hw : ∀ w', d.watch = some w' →
      ∃ w, c.watch = some w ∧ w'.attempt = w.attempt ∧ w'.ended = w.ended)
    (he : d.readEnd? = c.readEnd?) (hr : c.registered = false → d.registered = false) :
    Lived i (g ++ c.partings d) d := by
  have still : c.partings d = [] := by rw [Connection.partings, Connection.parts_of_eq he]; rfl
  rw [still, List.append_nil]
  constructor
  · intro w' hw'
    obtain ⟨w, there, attempt, ended⟩ := hw w' hw'
    rw [attempt, ended]
    exact h.attempt w there
  · intro w' hw'
    obtain ⟨w, there, -, ended⟩ := hw w' hw'
    rw [ended]
    exact h.steps w there
  · intro ended
    rw [he] at ended
    exact hr (h.left ended)

/-- When the reader ends, its attempt is brought to an end by two legal steps. -/
theorem stop (h : Lived i g c) {w : Watch} (hw : c.watch = some w) (he : w.ended = none)
    (sink : Sink) (rest : List Inbound) (reason : ReadEnd) :
    let d := Connection.stopReading { w with inbound := rest } reason { c with sink := sink }
    Lived i (g ++ c.partings d) d := by
  intro d
  have attempt : w.attempt = ⟨i, some i, .reading⟩ := by simpa [he] using h.attempt w hw
  have none : g = [] := by simpa [he] using h.steps w hw
  have watch : d.watch = some
      { inbound := rest, attempt := ⟨i, some i, .closed⟩, ended := some reason } := by
    refine (Connection.watch_stopReading _ _ _).trans ?_
    simp only [attempt]
    rfl
  have parted : c.partings d = [.move .closing true, .move .closed true] := by
    have before := Connection.readEnd?_of_watch hw
    have after := Connection.readEnd?_of_watch watch
    simp only [Connection.partings, Connection.parts, before, he, after, hw, Option.map_some,
      Watch.parting, attempt]
    rfl
  rw [none, parted, List.nil_append]
  constructor
  · intro w' hw'
    obtain rfl := Option.some.inj (watch.symm.trans hw')
    rfl
  · intro w' hw'
    obtain rfl := Option.some.inj (watch.symm.trans hw')
    rfl
  · intro _
    exact Connection.registered_remove _

/-- A turn, in whichever order the reader looks at what there is. -/
theorem reads (h : Lived i g c) (hr : Connection.Reads c d) : Lived i (g ++ c.partings d) d := by
  cases hr with
  | idle hn => exact h.keep (fun w hw => ⟨w, hw, rfl, rfl⟩) rfl id
  | goOn w sink hw he hs hi hl =>
    refine h.keep ?_ ?_ id
    · intro w' hw'
      obtain rfl := Option.some.inj hw'
      exact ⟨w, hw, rfl, rfl⟩
    · rw [Connection.readEnd?_of_watch hw]
      rfl
  | stop w sink rest reason hw he hr hl => exact h.stop hw he sink rest reason

theorem act (h : Lived i g c) (t : Tuning) (a : Act) :
    Lived i (g ++ c.partings (c.act t a)) (c.act t a) := by
  have left : c.registered = false → (c.act t a).registered = false := (Forward.act t a c).left
  obtain rfl | ⟨item, rfl⟩ | rfl | ⟨hr, -, aside⟩ := Connection.act_cases t a c
  · exact h.reads c.reads
  · refine h.keep ?_ (c.readEnd?_hear item) left
    intro w' hw'
    obtain ⟨w, there, rfl⟩ := Option.map_eq_some_iff.mp hw'
    exact ⟨w, there, rfl, rfl⟩
  · exact h.keep (fun w hw => ⟨w, hw, rfl, rfl⟩) rfl left
  · refine h.keep ?_ (Connection.readEnd?_act hr c) left
    intro w hw
    rw [aside.watch] at hw
    exact ⟨w, hw, rfl, rfl⟩

end Lived

namespace Service

variable {t : Tuning} {i : Nat} {moves : List Move} {c : Connection}

theorem lived_of_run (hc : ((start t).after moves).connections[i]? = some c) :
    Lived i ((start t).journal (fun _ c a => c.partings (c.act t a)) i moves) c :=
  run_journal_keep_opened Lived.opened (fun _ _ _ a _ h => h.act t a) (allows_any moves) hc

end Service

/-! ### What is logged -/

namespace Connection

variable {t : Tuning} {c d : Connection}

end Connection

namespace Service

variable {s : Service}

end Service

end Live

end Fanout
