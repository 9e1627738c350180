import Mathlib.Algebra.GroupWithZero.Nat
import Fanout.Proofs.Live.Consumption

/-!
Sinks with something on top. Of the harmless items that a client sends nothing remains but the answers to
its pings, which stand among the frames on the link until the client reads them. As long as the pipe has
room for them, a writer cannot tell the link from one without them.
-/

namespace Fanout

/-- The frame is the answer to a ping. -/
def Frame.isPong : Frame → Bool
  | .pong _ => true
  | _ => false

namespace Live

/-! ### Lists with something on top -/

/-- A list and the same list with further elements of some kind anywhere in it. -/
inductive Padded {α : Type} (extra : α → Prop) : List α → List α → Prop where
  | nil : Padded extra [] []
  | both (a : α) {l l' : List α} (rest : Padded extra l l') : Padded extra (a :: l) (a :: l')
  | extra {a : α} (ha : extra a) {l l' : List α} (rest : Padded extra l l') : Padded extra l (a :: l')

namespace Padded

variable {α : Type} {extra : α → Prop} {l l' k k' : List α}

theorem refl (l : List α) : Padded extra l l := by
  induction l with
  | nil => exact .nil
  | cons a rest ih => exact .both a ih

theorem append (h : Padded extra l l') (hk : Padded extra k k') : Padded extra (l ++ k) (l' ++ k') := by
  induction h with
  | nil => exact hk
  | both a _ ih => exact .both a ih
  | extra ha _ ih => exact .extra ha ih

theorem snoc (h : Padded extra l l') {a : α} (ha : extra a) : Padded extra l (l' ++ [a]) := by
  have last : Padded extra [] [a] := .extra ha .nil
  simpa using h.append last

/-- Where nothing can be on top, the lists are the same. -/
theorem eq (h : Padded extra l l') (none : ∀ a, ¬ extra a) : l' = l := by
  induction h with
  | nil => rfl
  | both a _ ih => rw [ih]
  | extra ha => exact absurd ha (none _)

theorem sum_le (f : α → Nat) (h : Padded extra l l') : (l.map f).sum ≤ (l'.map f).sum := by
  induction h with
  | nil => exact Nat.le_refl 0
  | both a _ ih =>
    rw [List.map_cons, List.map_cons, List.sum_cons, List.sum_cons]
    omega
  | extra _ _ ih =>
    rw [List.map_cons, List.sum_cons]
    omega

/-- What is left when all that may be on top is taken away. -/
theorem filter {p : α → Bool} (h : Padded extra l l') (hp : ∀ a, extra a → p a = false) :
    l'.filter p = l.filter p := by
  induction h with
  | nil => rfl
  | both a _ ih => rw [List.filter_cons, List.filter_cons, ih]
  | extra ha _ ih => rw [List.filter_cons, hp _ ha, ih]; rfl

end Padded

/-! ### Sinks -/

/-- A link, and the same link with answers to further pings, if there may be any. Of a link that was cut
nothing else matters. -/
structure Link.Resembles (pinged : Bool) (l l' : Link) : Prop where
  cut : l'.cut = l.cut
  closeSent : l.cut = false → l'.closeSent = l.closeSent
  peerClosed : l.cut = false → l'.peerClosed = l.peerClosed
  unread : l.cut = false →
    Padded (fun e : Frame × Nat => pinged ∧ e.1.isPong) l.unread l'.unread

/-- The pipe has room for all that is on the link. -/
def Link.hasRoom (l : Link) : Bool := l.cut || l.pending ≤ capacity

namespace Link.Resembles

variable {pinged : Bool} {l l' : Link}

theorem refl (pinged : Bool) (l : Link) : Resembles pinged l l where
  cut := rfl
  closeSent _ := rfl
  peerClosed _ := rfl
  unread _ := .refl l.unread

theorem of_cut (h : l.cut) (h' : l'.cut) : Resembles pinged l l' where
  cut := h'.trans h.symm
  closeSent whole := absurd (whole.symm.trans h) nofun
  peerClosed whole := absurd (whole.symm.trans h) nofun
  unread whole := absurd (whole.symm.trans h) nofun

theorem isClosing (h : Resembles pinged l l') (whole : l.cut = false) : l'.isClosing = l.isClosing := by
  rw [Link.isClosing, Link.isClosing, h.closeSent whole, h.peerClosed whole]

theorem push (h : Resembles pinged l l') (f : Frame) : Resembles pinged (l.push f) (l'.push f) where
  cut := h.cut
  closeSent := h.closeSent
  peerClosed := h.peerClosed
  unread whole := (h.unread whole).append (.refl _)

theorem take (h : Resembles pinged l l') (f : Frame) : Resembles pinged (l.take f) (l'.take f) := by
  cases f with
  | close reason =>
    have pushed := h.push (.close reason)
    exact ⟨pushed.cut, fun _ => rfl, pushed.peerClosed, pushed.unread⟩
  | _ => exact h.push _

/-- What fits with further answers fits without them. -/
theorem fits (h : Resembles pinged l l') (room : l'.hasRoom) (whole : l.cut = false) :
    l.pending ≤ capacity ∧ l'.pending ≤ capacity := by
  have fits : l'.pending ≤ capacity := by
    rw [hasRoom, h.cut, whole, Bool.false_or, decide_eq_true_eq] at room
    exact room
  have less : l.pending ≤ l'.pending := (h.unread whole).sum_le Prod.snd
  exact ⟨less.trans fits, fits⟩

/-- Whether the pipe is too full is the same on both links. -/
theorem pending (h : Resembles pinged l l') (room : pinged → l'.hasRoom) (whole : l.cut = false) :
    capacity < l'.pending ↔ capacity < l.pending := by
  cases pinged with
  | false =>
    have same : l'.unread = l.unread := (h.unread whole).eq fun e he => absurd he.1 nofun
    rw [Link.pending, same, ← Link.pending]
  | true =>
    obtain ⟨fits, fits'⟩ := h.fits (room rfl) whole
    exact iff_of_false (Nat.not_lt.mpr fits') (Nat.not_lt.mpr fits)

theorem ready (h : Resembles pinged l l') : l'.ready = l.ready := by
  rw [Link.ready, Link.ready, h.cut]
  cases whole : l.cut with
  | true => rfl
  | false => rw [h.peerClosed whole]

theorem flush (h : Resembles pinged l l') (room : pinged → l'.hasRoom) : l'.flush = l.flush := by
  rw [Link.flush, Link.flush, h.cut]
  cases whole : l.cut with
  | true => rfl
  | false => simp only [h.pending room whole, h.peerClosed whole]

theorem close (h : Resembles pinged l l') (room : pinged → l'.hasRoom) : l'.close = l.close := by
  rw [Link.close, Link.close, h.cut]
  cases whole : l.cut with
  | true => rfl
  | false => simp only [h.pending room whole]

theorem beginClose (h : Resembles pinged l l') : Resembles pinged l.beginClose l'.beginClose := by
  cases whole : l.cut with
  | true =>
    have keeps (l : Link) : l.beginClose.cut = l.cut := by
      rw [Link.beginClose]
      split <;> rfl
    exact of_cut ((keeps l).trans whole) ((keeps l').trans (h.cut.trans whole))
  | false =>
    rw [Link.beginClose, Link.beginClose, h.isClosing whole]
    split
    · exact h
    · exact h.take _

theorem answerPing (h : Resembles pinged l l') (b : Octets) :
    Resembles pinged (l.answerPing b) (l'.answerPing b) := by
  cases whole : l.cut with
  | true => exact of_cut ((cut_answerPing b l).trans whole) ((cut_answerPing b l').trans (h.cut.trans whole))
  | false =>
    rw [Link.answerPing, Link.answerPing, h.isClosing whole]
    split
    · exact h
    · have pushed := h.push (.pong b)
      exact ⟨pushed.cut, pushed.closeSent, pushed.peerClosed, pushed.unread⟩

/-- A further ping leaves nothing but its answer. -/
theorem answerFurther (h : Resembles true l l') (b : Octets) : Resembles true l (l'.answerPing b) := by
  rw [Link.answerPing]
  split
  · exact h
  · exact ⟨h.cut, h.closeSent, h.peerClosed, fun whole => (h.unread whole).snoc ⟨rfl, rfl⟩⟩

theorem peerClose (h : Resembles pinged l l') (reply : Frame) :
    Resembles pinged (l.peerClose reply) (l'.peerClose reply) := by
  cases whole : l.cut with
  | true =>
    have keeps (l : Link) : (l.peerClose reply).cut = l.cut := by
      cases hc : l.isClosing <;> simp [Link.peerClose, hc, Link.push]
    exact of_cut ((keeps l).trans whole) ((keeps l').trans (h.cut.trans whole))
  | false =>
    have inner : Resembles pinged (if l.isClosing then l else l.push reply)
        (if l'.isClosing then l' else l'.push reply) := by
      rw [h.isClosing whole]
      split
      · exact h
      · exact h.push reply
    exact ⟨inner.cut, inner.closeSent, fun _ => rfl, inner.unread⟩

/-- The client reads all that fits the pipe. -/
theorem read_eq_nil {n : Nat} {u : List (Frame × Nat)} (h : (u.map Prod.snd).sum ≤ n) :
    (Link.read n u).2 = [] := by
  fun_induction Link.read n u with
  | case1 => rfl
  | case2 n f k rest fits frames tail same ih =>
    rw [List.map_cons, List.sum_cons] at h
    have done := ih (by omega)
    rwa [same] at done
  | case3 n f k rest wide =>
    rw [List.map_cons, List.sum_cons] at h
    omega

theorem read (h : Resembles pinged l l') (room : pinged → l'.hasRoom) (whole : l.cut = false) :
    Padded (fun e : Frame × Nat => pinged ∧ e.1.isPong)
      (Link.read (min l.pending capacity) l.unread).2
      (Link.read (min l'.pending capacity) l'.unread).2 := by
  cases pinged with
  | false =>
    have same : l'.unread = l.unread := (h.unread whole).eq fun e he => absurd he.1 nofun
    rw [Link.pending, Link.pending, same]
    exact .refl _
  | true =>
    obtain ⟨fits, fits'⟩ := h.fits (room rfl) whole
    have all (l : Link) (fits : l.pending ≤ capacity) :
        (Link.read (min l.pending capacity) l.unread).2 = [] :=
      read_eq_nil (Nat.le_min.mpr ⟨Nat.le_refl _, fits⟩)
    rw [all l fits, all l' fits']
    exact .nil

end Link.Resembles

/-- A sink, and the same sink with answers to further pings. -/
inductive Sink.Resembles (pinged : Bool) : Sink → Sink → Prop where
  | probe (p : Probe) : Resembles pinged (.probe p) (.probe p)
  | link {l l' : Link} (h : Link.Resembles pinged l l') : Resembles pinged (.link l) (.link l')

namespace Sink

def hasRoom (s : Sink) : Bool := s.link?.all Link.hasRoom

/-- What goes into the sink when an item is looked at. -/
def reply (item : Inbound) (s : Sink) : Sink :=
  match item with
  | .ping b => s.mapLink (Link.answerPing b)
  | .close reason => s.mapLink (Link.peerClose (.close (closeReply reason)))
  | _ => s

theorem isWhole_reply (item : Inbound) (s : Sink) : (s.reply item).isWhole = s.isWhole := by
  cases item with
  | ping b => exact s.isWhole_mapLink (Link.cut_answerPing b)
  | close reason =>
    apply s.isWhole_mapLink
    intro l
    cases hc : l.isClosing <;> simp [Link.peerClose, hc, Link.push]
  | _ => rfl

namespace Resembles

variable {pinged : Bool} {s s' : Sink}

theorem refl (pinged : Bool) (s : Sink) : Resembles pinged s s := by
  cases s with
  | probe p => exact .probe p
  | link l => exact .link (.refl pinged l)

theorem isWhole (h : Resembles pinged s s') : s'.isWhole = s.isWhole := by
  cases h with
  | probe p => rfl
  | link h => simp [Sink.isWhole, link?, h.cut]

/-- Links that were cut cannot be told apart. -/
theorem of_cut (h : s.isWhole = false) (h' : s'.isWhole = false) : Resembles pinged s s' := by
  cases s with
  | probe p => cases h
  | link l =>
    cases s' with
    | probe p => cases h'
    | link l' =>
      exact .link (.of_cut (by simpa [Sink.isWhole, link?] using h)
        (by simpa [Sink.isWhole, link?] using h'))

theorem mapLink {g : Link → Link}
    (hg : ∀ l l', Link.Resembles pinged l l' → Link.Resembles pinged (g l) (g l'))
    (h : Resembles pinged s s') : Resembles pinged (s.mapLink g) (s'.mapLink g) := by
  cases h with
  | probe p => exact .probe p
  | link h => exact .link (hg _ _ h)

theorem ready (h : Resembles pinged s s') : s'.ready = s.ready := by
  cases h with
  | probe p => rfl
  | link h => exact h.ready

theorem flush (h : Resembles pinged s s') (room : pinged → s'.hasRoom) : s'.flush = s.flush := by
  cases h with
  | probe p => rfl
  | link h => exact h.flush room

theorem close (h : Resembles pinged s s') (room : pinged → s'.hasRoom) : s'.close = s.close := by
  cases h with
  | probe p => rfl
  | link h => exact h.close room

theorem take (h : Resembles pinged s s') (f : Frame) : Resembles pinged (s.take f) (s'.take f) := by
  cases h with
  | probe p => exact .probe (p.take f)
  | link h => exact .link (h.take f)

theorem beginClose (h : Resembles pinged s s') : Resembles pinged s.beginClose s'.beginClose := by
  cases h with
  | probe p => exact .probe p
  | link h => exact .link h.beginClose

theorem endClose (h : Resembles pinged s s') : Resembles pinged s.endClose s'.endClose := by
  cases h with
  | probe p => exact .probe _
  | link h => exact .link h

theorem mapProbe (h : Resembles pinged s s') (g : Probe → Probe) :
    Resembles pinged (s.mapProbe g) (s'.mapProbe g) := by
  cases h with
  | probe p => exact .probe (g p)
  | link h => exact .link h

theorem reply (h : Resembles pinged s s') (item : Inbound) :
    Resembles pinged (s.reply item) (s'.reply item) := by
  cases item with
  | ping b => exact h.mapLink fun l l' hl => hl.answerPing b
  | close reason => exact h.mapLink fun l l' hl => hl.peerClose _
  | _ => exact h

/-- A harmless item on top leaves nothing but the answer to a ping. -/
theorem replyFurther (h : Resembles pinged s s') {item : Inbound} (harmless : item.isHarmless)
    (ping : ∀ b, item = .ping b → pinged) : Resembles pinged s (s'.reply item) := by
  cases item with
  | ping b =>
    obtain rfl : pinged = true := ping b rfl
    cases h with
    | probe p => exact .probe p
    | link h => exact .link (h.answerFurther b)
  | close reason => cases harmless
  | _ => exact h

end Resembles

end Sink

end Live

end Fanout
