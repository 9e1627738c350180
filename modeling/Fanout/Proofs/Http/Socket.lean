import Mathlib.Data.List.Basic
import Fanout.Live.Client

/-!
The answer to a request for a socket that comes over no connection. The credential is looked at
first, and of what is wrong with it the answer tells only whether there is one. The handshake is
looked at then, and it fails at the latest for want of a connection, so no client is attached.
-/

namespace Fanout.Http

/-! ### The handshake -/

namespace UpgradeFault

/-- The faults in the order in which they are looked for. -/
def inOrder : List UpgradeFault := [method, connection, upgrade, version, key, noTransport]

/-- Whether a handshake has a fault. -/
def applies (m : String) (h : Headers) (transport : Bool) : UpgradeFault → Bool
  | method => m != "GET"
  | connection => !h.mentions "connection" "upgrade"
  | upgrade => !h.equals "upgrade" "websocket"
  | version => !h.equals "sec-websocket-version" "13"
  | key => (h.get? "sec-websocket-key").isNone
  | noTransport => !transport

end UpgradeFault

theorem find?_cons_eq_ite {α : Type} {p : α → Bool} {a : α} {l : List α} :
    (a :: l).find? p = if p a then some a else l.find? p := by
  cases h : p a <;> simp [h]

theorem upgradeFault?_eq_find? (method : String) (h : Headers) (transport : Bool) :
    upgradeFault? method h transport =
      UpgradeFault.inOrder.find? (UpgradeFault.applies method h transport) := by
  simp only [UpgradeFault.inOrder, find?_cons_eq_ite, UpgradeFault.applies, bne_iff_ne]
  rfl

/-- A handshake over no connection has a fault. -/
theorem exists_upgradeFault (method : String) (h : Headers) :
    ∃ fault, upgradeFault? method h false = some fault := by
  rw [← Option.isSome_iff_exists, upgradeFault?_eq_find?, List.find?_isSome]
  exact ⟨.noTransport, by simp [UpgradeFault.inOrder], rfl⟩

/-! ### Responses -/

/-- The response to a request that is turned down, as it leaves the service. -/
def turnedDown (status : Nat) (message : String) : Response where
  status := status
  headers := [("content-type", "application/json"), ("access-control-allow-origin", "*"),
    ("access-control-expose-headers", "*")]
  body := (Json.Value.object [("message", .string message), ("success", .bool false)]).octets

/-- The credential that a request shows. -/
def Request.credential (r : Request) : Option String :=
  Credential.find? (Credential.ofQuery? r.target.query) r.headers

theorem bearer_eq (r : Request) (secret : String) (now : Int) :
    r.bearer secret now = Bearer.ofCredential secret now r.credential := rfl

variable {r : Request} {c : Context}

theorem opened?_eq_none (r : Request) (c : Context) : r.opened? c = none := by
  have never : (r.openSocket c false).toOption = none := by
    obtain ⟨fault, fails⟩ := exists_upgradeFault r.method r.headers
    rw [Request.openSocket]
    cases r.bearer c.secret c.now with
    | error e => rfl
    | ok who => simp [fails, Except.toOption]
  rw [Request.opened?]
  split
  · rw [never, ite_self]
  · rfl

theorem ofPath?_socket : Route.ofPath? (Octets.ofText "/ws") = some .socket := by
  decide +kernel

theorem respond_socket (get : r.method = "GET") (path : r.target.path = Octets.ofText "/ws") :
    r.respond c =
      ((Route.socket.answer c r).withHeader "access-control-allow-origin" "*").withHeader
        "access-control-expose-headers" "*" := by
  rw [Request.respond, Request.routed, path, ofPath?_socket]
  simp [get]

theorem respond_of_noBearer (get : r.method = "GET") (path : r.target.path = Octets.ofText "/ws")
    {e : AdmissionError} (h : Bearer.ofCredential c.secret c.now r.credential = .error e) :
    r.respond c = turnedDown 401 e.message := by
  rw [respond_socket get path, Route.answer, Request.openSocket, bearer_eq, h]
  rfl

theorem respond_of_fault (get : r.method = "GET") (path : r.target.path = Octets.ofText "/ws")
    {who : Bearer} (h : Bearer.ofCredential c.secret c.now r.credential = .ok who)
    {fault : UpgradeFault} (fails : upgradeFault? "GET" r.headers false = some fault) :
    r.respond c = turnedDown 400 ("Invalid request: " ++ fault.message) := by
  rw [respond_socket get path, Route.answer, Request.openSocket, bearer_eq, h]
  simp only [get, fails]
  rfl

/-! ### Requests for a socket -/

/-- A request shows a credential that is not valid, for whatever reason. -/
def Request.ShowsInvalid (r : Request) (secret : String) (now : Int) : Prop :=
  ∃ t e, r.credential = some t ∧ Token.validate secret now t = .error e

variable {s : Live.Service} {secret : String} {now : Int}

theorem Request.ShowsInvalid.credential_ne_none (h : r.ShowsInvalid secret now) :
    r.credential ≠ none := by
  obtain ⟨t, e, shown, -⟩ := h
  rw [shown]
  exact Option.some_ne_none t

theorem serve_of_absent (get : r.method = "GET") (path : r.target.path = Octets.ofText "/ws")
    (absent : r.credential = none) :
    (s.serve secret now r).1 = turnedDown 401 "token required" := by
  have turned : Bearer.ofCredential secret now r.credential = .error .noCredential := by
    rw [absent]
    rfl
  exact respond_of_noBearer (c := s.context secret now) (e := .noCredential) get path turned

theorem serve_of_invalid (get : r.method = "GET") (path : r.target.path = Octets.ofText "/ws")
    (invalid : r.ShowsInvalid secret now) :
    (s.serve secret now r).1 = turnedDown 401 "invalid token" := by
  obtain ⟨t, e, shown, fails⟩ := invalid
  have turned : Bearer.ofCredential secret now r.credential = .error (.badCredential e) := by
    rw [shown, Bearer.ofCredential, fails]
  exact respond_of_noBearer (c := s.context secret now) (e := .badCredential e) get path turned

theorem serve_of_valid (get : r.method = "GET") (path : r.target.path = Octets.ofText "/ws")
    (present : r.credential ≠ none) (valid : ¬r.ShowsInvalid secret now) :
    ∃ fault, UpgradeFault.inOrder.find? (UpgradeFault.applies "GET" r.headers false) = some fault ∧
      (s.serve secret now r).1 = turnedDown 400 ("Invalid request: " ++ fault.message) := by
  obtain ⟨t, shown⟩ := Option.ne_none_iff_exists'.mp present
  obtain ⟨fault, fails⟩ := exists_upgradeFault "GET" r.headers
  have taken : ∃ who, Bearer.ofCredential secret now r.credential = .ok who := by
    rw [shown, Bearer.ofCredential]
    cases read : Token.validate secret now t with
    | error e => exact absurd ⟨t, e, shown, read⟩ valid
    | ok c => exact ⟨c.bearer, rfl⟩
  obtain ⟨who, taken⟩ := taken
  have answered := respond_of_fault (c := s.context secret now) get path taken fails
  rw [upgradeFault?_eq_find?] at fails
  exact ⟨fault, fails, answered⟩

/-- The two responses to a request without a valid credential are not the same. -/
theorem turnedDown_required_ne_invalid :
    turnedDown 401 "token required" ≠ turnedDown 401 "invalid token" := by
  decide +kernel

@[simp] theorem status_turnedDown (n : Nat) (a : String) : (turnedDown n a).status = n := rfl

theorem turnedDown_ne {n m : Nat} (h : n ≠ m) (a b : String) : turnedDown n a ≠ turnedDown m b :=
  fun same => h (congrArg Response.status same)

theorem serve_snd (s : Live.Service) (secret : String) (now : Int) (r : Request) :
    (s.serve secret now r).2 = s := by
  rw [Live.Service.serve, opened?_eq_none]

/-- The response does not depend on why a credential is not valid, nor on anything else. -/
theorem serve_fst_congr {s' : Live.Service} {secret' : String} {now' : Int} {r' : Request}
    (get : r.method = "GET") (path : r.target.path = Octets.ofText "/ws")
    (get' : r'.method = "GET") (path' : r'.target.path = Octets.ofText "/ws")
    (alike : r.credential = none ∧ r'.credential = none ∨
      r.ShowsInvalid secret now ∧ r'.ShowsInvalid secret' now') :
    (s'.serve secret' now' r').1 = (s.serve secret now r).1 := by
  rcases alike with ⟨absent, absent'⟩ | ⟨invalid, invalid'⟩
  · rw [serve_of_absent get path absent, serve_of_absent get' path' absent']
  · rw [serve_of_invalid get path invalid, serve_of_invalid get' path' invalid']

/-- A request for a socket leaves the service as it is. It is turned down as unauthorized exactly if
its credential is absent or not valid, in one way or the other, and otherwise for the first fault of
its handshake. Two requests with absent credentials get the same response, and so do two with
credentials that are not valid, whoever serves them and whatever else they hold. -/
theorem authenticated_first (s : Live.Service) (secret : String) (now : Int) (r : Request)
    (get : r.method = "GET") (path : r.target.path = Octets.ofText "/ws") :
    (s.serve secret now r).2 = s ∧
    ((s.serve secret now r).1.status = 401 ↔
      r.credential = none ∨ r.ShowsInvalid secret now) ∧
    ((s.serve secret now r).1.status ≠ 401 →
      ∃ fault,
        UpgradeFault.inOrder.find? (UpgradeFault.applies "GET" r.headers false) = some fault ∧
          (s.serve secret now r).1 = turnedDown 400 ("Invalid request: " ++ fault.message)) ∧
    ((s.serve secret now r).1 = turnedDown 401 "token required" ↔ r.credential = none) ∧
    ((s.serve secret now r).1 = turnedDown 401 "invalid token" ↔ r.ShowsInvalid secret now) ∧
    ∀ (s' : Live.Service) (secret' : String) (now' : Int) (r' : Request), r'.method = "GET" →
      r'.target.path = Octets.ofText "/ws" →
        (r.credential = none ∧ r'.credential = none ∨
          r.ShowsInvalid secret now ∧ r'.ShowsInvalid secret' now') →
            (s'.serve secret' now' r').1 = (s.serve secret now r).1 := by
  have alike : ∀ (s' : Live.Service) (secret' : String) (now' : Int) (r' : Request), _ → _ → _ →
      (s'.serve secret' now' r').1 = (s.serve secret now r).1 :=
    fun s' secret' now' r' get' path' => serve_fst_congr get path get' path'
  by_cases absent : r.credential = none
  · have response : (s.serve secret now r).1 = turnedDown 401 "token required" :=
      serve_of_absent get path absent
    have valid : ¬r.ShowsInvalid secret now := fun h => h.credential_ne_none absent
    refine ⟨serve_snd s secret now r, ?_, ?_, ?_, ?_, alike⟩ <;>
      simp [response, absent, valid, turnedDown_required_ne_invalid]
  · by_cases invalid : r.ShowsInvalid secret now
    · have response : (s.serve secret now r).1 = turnedDown 401 "invalid token" :=
        serve_of_invalid get path invalid
      refine ⟨serve_snd s secret now r, ?_, ?_, ?_, ?_, alike⟩ <;>
        simp [response, absent, invalid, turnedDown_required_ne_invalid.symm]
    · obtain ⟨fault, fails, response⟩ : ∃ fault, _ ∧ (s.serve secret now r).1 = _ :=
        serve_of_valid get path absent invalid
      refine ⟨serve_snd s secret now r, ?_, ?_, ?_, ?_, alike⟩ <;>
        simp [response, absent, invalid, fails, turnedDown_ne]

/-- A request that asks for a socket as it should and one that does not, each with a token of its
own that is none, are turned down alike. -/
theorem authenticated_first_garbled :
    let asking : Request :=
      ⟨"GET", ⟨Octets.ofText "/ws", some (Octets.ofText "token=x")⟩, handshake⟩
    let other : Request :=
      ⟨"GET", ⟨Octets.ofText "/ws", some (Octets.ofText "a=b&token=y.z")⟩, []⟩
    let s : Live.Service := { tuning := {} }
    (s.serve "secret" 60 asking).1 = turnedDown 401 "invalid token" ∧
      (s.serve "secret" 60 other).1 = (s.serve "secret" 60 asking).1 := by
  intro asking other s
  have first : asking.ShowsInvalid "secret" 60 :=
    ⟨"x", .invalid, by decide +kernel, by decide +kernel⟩
  have second : other.ShowsInvalid "secret" 60 :=
    ⟨"y.z", .invalid, by decide +kernel, by decide +kernel⟩
  obtain ⟨-, -, -, -, refused, alike⟩ := authenticated_first s "secret" 60 asking rfl rfl
  exact ⟨refused.mpr first, alike s "secret" 60 other rfl rfl (.inr ⟨first, second⟩)⟩

end Fanout.Http
