/-
  Bounded channels whose senders wait in line.

  A channel has as many permits as its capacity.  A message in the buffer holds one, and so
  does a sender that has been given one and has not sent yet.  A sender that finds no permit
  waits in line, and the receiver passes the permit of a message it takes to the first in
  line.  So a permit that is free is free for everybody: nobody waits then.
-/

import Mathlib.Data.List.Basic
import TokioEvents.Lib.Mpsc

namespace Permits

/-- A bounded channel with senders `ι` and messages `α`. -/
structure Channel (ι α : Type*) where
  buffer : List α
  capacity : Nat
  /-- The senders with a permit, each with its message. -/
  granted : List (ι × α)
  /-- The line. -/
  waiting : List (ι × α)
  /-- The receiver has not been dropped. -/
  receiver : Bool

namespace Channel

variable {ι α β : Type*}

/-- A fresh channel. -/
def new (capacity : Nat) : Channel ι α := ⟨[], capacity, [], [], true⟩

/-- The permits that are free. -/
def available (c : Channel ι α) : Nat := c.capacity - (c.buffer.length + c.granted.length)

/-- The receiver exists and every permit is out. -/
def AtCapacity (c : Channel ι α) : Prop :=
  c.receiver = true ∧ c.buffer.length + c.granted.length = c.capacity

instance (c : Channel ι α) : Decidable c.AtCapacity := inferInstanceAs (Decidable (_ ∧ _))

/-- Send without waiting. -/
def trySend (c : Channel ι α) (a : α) : Except Mpsc.TrySendError (Channel ι α) :=
  if !c.receiver then .error .closed
  else if c.available = 0 then .error .full
  else .ok { c with buffer := c.buffer ++ [a] }

/-- Wait in line. -/
def await (c : Channel ι α) (i : ι) (a : α) : Channel ι α :=
  { c with waiting := c.waiting ++ [(i, a)] }

/-- Take a free permit, or wait in line. -/
def reserve (c : Channel ι α) (i : ι) (a : α) : Channel ι α :=
  if c.available = 0 then c.await i a else { c with granted := c.granted ++ [(i, a)] }

/-- A permit has come free. -/
def pass (c : Channel ι α) : Channel ι α :=
  match c.waiting with
  | [] => c
  | first :: rest => { c with granted := c.granted ++ [first], waiting := rest }

/-- Take the oldest message. -/
def recv (c : Channel ι α) : Option (α × Channel ι α) :=
  match c.buffer with
  | [] => none
  | a :: rest => some (a, { c with buffer := rest }.pass)

/-- Drop the receiver with everything buffered. -/
def dropReceiver (c : Channel ι α) : Channel ι α := { c with buffer := [], receiver := false }

section Senders

variable [DecidableEq ι]

/-- A sender with a permit sends its message. -/
def complete (c : Channel ι α) (i : ι) : Option (α × Channel ι α) :=
  (c.granted.find? fun g => g.1 = i).map fun g =>
    (g.2, { c with granted := c.granted.eraseP fun g => g.1 = i, buffer := c.buffer ++ [g.2] })

/-- The sender has a permit, or waits in line. -/
def holds (c : Channel ι α) (i : ι) : Bool :=
  (c.granted.any fun g => g.1 = i) || c.waiting.any fun w => w.1 = i

/-- A sender gives up; its permit comes free. -/
def abandon (c : Channel ι α) (i : ι) : Channel ι α :=
  if c.granted.any fun g => g.1 = i then
    { c with granted := c.granted.eraseP fun g => g.1 = i }.pass
  else { c with waiting := c.waiting.eraseP fun w => w.1 = i }

end Senders

/-! ## What a send finds -/

theorem trySend_eq_ok {c c' : Channel ι α} {a : α} :
    c.trySend a = .ok c'
      ↔ c.receiver = true ∧ c.available ≠ 0 ∧ c' = { c with buffer := c.buffer ++ [a] } := by
  unfold trySend
  cases c.receiver with
  | false => simp
  | true => by_cases h : c.available = 0 <;> simp [h, eq_comm]

theorem trySend_eq_full {c : Channel ι α} {a : α} :
    c.trySend a = .error .full ↔ c.receiver = true ∧ c.available = 0 := by
  unfold trySend
  cases c.receiver with
  | false => simp
  | true => by_cases h : c.available = 0 <;> simp [h]

theorem trySend_eq_closed {c : Channel ι α} {a : α} :
    c.trySend a = .error .closed ↔ c.receiver = false := by
  unfold trySend
  cases c.receiver with
  | false => simp
  | true => by_cases h : c.available = 0 <;> simp [h]

/-! ## The permits are not overdrawn -/

/-- No more permits are out than there are. -/
def Bounded (c : Channel ι α) : Prop := c.buffer.length + c.granted.length ≤ c.capacity

theorem bounded_new (n : Nat) : (new n : Channel ι α).Bounded := Nat.zero_le n

/-- With the permits in order, a send is refused exactly at capacity. -/
theorem Bounded.available_eq_zero {c : Channel ι α} (h : c.Bounded) :
    c.available = 0 ↔ c.buffer.length + c.granted.length = c.capacity := by
  unfold Bounded at h
  unfold available
  omega

theorem bounded_of_trySend {c c' : Channel ι α} {a : α} (hsend : c.trySend a = .ok c') :
    c'.Bounded := by
  obtain ⟨-, havailable, rfl⟩ := trySend_eq_ok.mp hsend
  unfold available at havailable
  show (c.buffer ++ [a]).length + c.granted.length ≤ c.capacity
  rw [List.length_append, List.length_singleton]
  omega

theorem Bounded.await {c : Channel ι α} (h : c.Bounded) (i : ι) (a : α) :
    (c.await i a).Bounded := h

/-- A free permit may be passed on. -/
theorem bounded_pass {c : Channel ι α} (h : c.buffer.length + c.granted.length < c.capacity) :
    c.pass.Bounded := by
  unfold pass
  split
  · exact Nat.le_of_lt h
  · rename_i first rest hwaiting
    show c.buffer.length + (c.granted ++ [first]).length ≤ c.capacity
    rw [List.length_append, List.length_singleton]
    omega

theorem Bounded.recv {c c' : Channel ι α} {a : α} (h : c.Bounded)
    (hrecv : c.recv = some (a, c')) : c'.Bounded := by
  unfold Channel.recv at hrecv
  split at hrecv
  · cases hrecv
  · rename_i rest hbuffer
    cases hrecv
    apply bounded_pass
    unfold Bounded at h
    rw [hbuffer, List.length_cons] at h
    show rest.length + c.granted.length < c.capacity
    omega

theorem Bounded.dropReceiver {c : Channel ι α} (h : c.Bounded) : c.dropReceiver.Bounded := by
  unfold Bounded at h ⊢
  show 0 + c.granted.length ≤ c.capacity
  omega

section Senders

variable [DecidableEq ι]

/-- One of the permits that are out is given back. -/
theorem length_eraseP_granted {c : Channel ι α} {i : ι}
    (h : ∃ g ∈ c.granted, decide (g.1 = i) = true) :
    (c.granted.eraseP fun g => g.1 = i).length + 1 = c.granted.length := by
  obtain ⟨g, hg, hi⟩ := h
  have hpos : 0 < c.granted.length := List.length_pos_of_mem hg
  rw [List.length_eraseP_of_mem hg hi]
  omega

theorem Bounded.complete {c c' : Channel ι α} {i : ι} {a : α} (h : c.Bounded)
    (hcomplete : c.complete i = some (a, c')) : c'.Bounded := by
  obtain ⟨g, hfound, heq⟩ := Option.map_eq_some_iff.mp hcomplete
  cases heq
  have hlength := length_eraseP_granted ⟨g, List.mem_of_find?_eq_some hfound,
    List.find?_some (p := fun g : ι × α => decide (g.1 = i)) hfound⟩
  unfold Bounded at h
  show (c.buffer ++ [g.2]).length + (c.granted.eraseP fun g => g.1 = i).length ≤ c.capacity
  rw [List.length_append, List.length_singleton]
  omega

theorem Bounded.abandon {c : Channel ι α} (h : c.Bounded) (i : ι) : (c.abandon i).Bounded := by
  unfold Channel.abandon
  split
  · rename_i hany
    have hlength := length_eraseP_granted (List.any_eq_true.mp hany)
    apply bounded_pass
    unfold Bounded at h
    show c.buffer.length + (c.granted.eraseP fun g => g.1 = i).length < c.capacity
    omega
  · exact h

end Senders

/-! ## The senders on their way -/

/-- Those who have not sent yet, the ones with a permit first. -/
def line (c : Channel ι α) : List (ι × α) := c.granted ++ c.waiting

/-- A permit that is passed on stays in the line. -/
theorem line_pass (c : Channel ι α) : c.pass.line = c.line := by
  unfold pass
  split
  · rfl
  · rename_i first rest hwaiting
    show (c.granted ++ [first]) ++ rest = c.granted ++ c.waiting
    rw [hwaiting, List.append_assoc, List.singleton_append]

theorem buffer_pass (c : Channel ι α) : c.pass.buffer = c.buffer := by
  unfold pass
  split <;> rfl

theorem receiver_pass (c : Channel ι α) : c.pass.receiver = c.receiver := by
  unfold pass
  split <;> rfl

/-- The receiver takes the head of the buffer, and nobody leaves the line. -/
theorem recv_eq_some {c c' : Channel ι α} {a : α} (h : c.recv = some (a, c')) :
    c.buffer = a :: c'.buffer ∧ c'.line = c.line ∧ c'.receiver = c.receiver := by
  unfold recv at h
  split at h
  · cases h
  · rename_i rest hbuffer
    cases h
    exact ⟨by rw [buffer_pass, hbuffer], line_pass _, receiver_pass _⟩

theorem capacity_recv {c c' : Channel ι α} {a : α} (h : c.recv = some (a, c')) :
    c'.capacity = c.capacity := by
  unfold recv at h
  split at h
  · cases h
  · cases h
    unfold pass
    split <;> rfl

theorem exists_recv {c : Channel ι α} {a : α} {rest : List α} (h : c.buffer = a :: rest) :
    ∃ c', c.recv = some (a, c') ∧ c'.buffer = rest := by
  refine ⟨{ c with buffer := rest }.pass, ?_, buffer_pass _⟩
  unfold recv
  rw [h]

theorem mem_line_reserve {c : Channel ι α} {i : ι} {a : α} {g : ι × α} :
    g ∈ (c.reserve i a).line ↔ g ∈ c.line ∨ g = (i, a) := by
  unfold reserve await line
  split
  · simp only [List.mem_append, List.mem_singleton, or_assoc]
  · simp only [List.mem_append, List.mem_singleton, or_assoc]
    exact or_congr Iff.rfl or_comm

theorem buffer_reserve (c : Channel ι α) (i : ι) (a : α) : (c.reserve i a).buffer = c.buffer := by
  unfold reserve
  split <;> rfl

theorem capacity_reserve (c : Channel ι α) (i : ι) (a : α) :
    (c.reserve i a).capacity = c.capacity := by
  unfold reserve
  split <;> rfl

theorem receiver_reserve (c : Channel ι α) (i : ι) (a : α) :
    (c.reserve i a).receiver = c.receiver := by
  unfold reserve
  split <;> rfl

section Senders

variable [DecidableEq ι]

/-- The sender leaves the line, and its message goes to the end of the buffer. -/
theorem complete_eq_some {c c' : Channel ι α} {i : ι} {a : α} (h : c.complete i = some (a, c')) :
    (i, a) ∈ c.line ∧ c'.buffer = c.buffer ++ [a] ∧ (∀ g ∈ c'.line, g ∈ c.line) ∧
      c'.receiver = c.receiver := by
  obtain ⟨g, hfound, heq⟩ := Option.map_eq_some_iff.mp h
  cases heq
  have hi : g.1 = i := by simpa using List.find?_some hfound
  refine ⟨?_, rfl, fun g' hg' => ?_, rfl⟩
  · rw [← hi]
    exact List.mem_append_left _ (List.mem_of_find?_eq_some hfound)
  · rcases List.mem_append.mp hg' with hgranted | hwaiting
    · exact List.mem_append_left _ (List.mem_of_mem_eraseP hgranted)
    · exact List.mem_append_right _ hwaiting

theorem capacity_complete {c c' : Channel ι α} {i : ι} {a : α} (h : c.complete i = some (a, c')) :
    c'.capacity = c.capacity := by
  obtain ⟨g, -, heq⟩ := Option.map_eq_some_iff.mp h
  cases heq
  rfl

theorem buffer_abandon (c : Channel ι α) (i : ι) : (c.abandon i).buffer = c.buffer := by
  unfold abandon
  split
  · exact buffer_pass _
  · rfl

theorem receiver_abandon (c : Channel ι α) (i : ι) : (c.abandon i).receiver = c.receiver := by
  unfold abandon
  split
  · exact receiver_pass _
  · rfl

theorem capacity_abandon (c : Channel ι α) (i : ι) : (c.abandon i).capacity = c.capacity := by
  unfold abandon pass
  repeat' split
  all_goals rfl

/-- Nobody else joins the line. -/
theorem mem_line_of_abandon {c : Channel ι α} {i : ι} {g : ι × α} (h : g ∈ (c.abandon i).line) :
    g ∈ c.line := by
  unfold abandon at h
  split at h
  · rw [line_pass] at h
    rcases List.mem_append.mp h with hgranted | hwaiting
    · exact List.mem_append_left _ (List.mem_of_mem_eraseP hgranted)
    · exact List.mem_append_right _ hwaiting
  · rcases List.mem_append.mp h with hgranted | hwaiting
    · exact List.mem_append_left _ hgranted
    · exact List.mem_append_right _ (List.mem_of_mem_eraseP hwaiting)

end Senders

/-! ## What all messages have in common -/

/-- `p` holds of every message in the buffer, and of those on their way. -/
def Everywhere (p : α → Prop) (c : Channel ι α) : Prop :=
  (∀ a ∈ c.buffer, p a) ∧ ∀ g ∈ c.line, p g.2

variable {p : α → Prop}

theorem everywhere_new (n : Nat) : (new n : Channel ι α).Everywhere p :=
  ⟨fun _ h => absurd h List.not_mem_nil, fun _ h => absurd h List.not_mem_nil⟩

theorem Everywhere.trySend {c c' : Channel ι α} {a : α} (h : c.Everywhere p) (ha : p a)
    (hsend : c.trySend a = .ok c') : c'.Everywhere p := by
  obtain ⟨-, -, rfl⟩ := trySend_eq_ok.mp hsend
  exact ⟨List.forall_mem_append.mpr ⟨h.1, List.forall_mem_singleton.mpr ha⟩, h.2⟩

theorem Everywhere.await {c : Channel ι α} (h : c.Everywhere p) (i : ι) {a : α} (ha : p a) :
    (c.await i a).Everywhere p := by
  refine ⟨h.1, ?_⟩
  show ∀ g ∈ c.granted ++ (c.waiting ++ [(i, a)]), p g.2
  rw [← List.append_assoc]
  exact List.forall_mem_append.mpr ⟨h.2, List.forall_mem_singleton.mpr ha⟩

theorem Everywhere.recv {c c' : Channel ι α} {a : α} (h : c.Everywhere p)
    (hrecv : c.recv = some (a, c')) : p a ∧ c'.Everywhere p := by
  obtain ⟨hbuffer, hline, -⟩ := recv_eq_some hrecv
  obtain ⟨hall, hrest⟩ := h
  rw [hbuffer] at hall
  exact ⟨(List.forall_mem_cons.mp hall).1, (List.forall_mem_cons.mp hall).2, by rwa [hline]⟩

theorem Everywhere.dropReceiver {c : Channel ι α} (h : c.Everywhere p) :
    c.dropReceiver.Everywhere p :=
  ⟨fun _ hmem => absurd hmem List.not_mem_nil, h.2⟩

section Senders

variable [DecidableEq ι]

theorem Everywhere.complete {c c' : Channel ι α} {i : ι} {a : α} (h : c.Everywhere p)
    (hcomplete : c.complete i = some (a, c')) : p a ∧ c'.Everywhere p := by
  obtain ⟨hmem, hbuffer, hline, -⟩ := complete_eq_some hcomplete
  have ha : p a := h.2 _ hmem
  refine ⟨ha, ?_, fun g hg => h.2 g (hline g hg)⟩
  rw [hbuffer]
  exact List.forall_mem_append.mpr ⟨h.1, List.forall_mem_singleton.mpr ha⟩

theorem Everywhere.abandon {c : Channel ι α} (h : c.Everywhere p) (i : ι) :
    (c.abandon i).Everywhere p :=
  ⟨by rw [buffer_abandon]; exact h.1, fun g hg => h.2 g (mem_line_of_abandon hg)⟩

end Senders

/-! ## Nobody waits for a permit that is free -/

/-- As long as the receiver is there, somebody waits only while every permit is out. -/
def Tight (c : Channel ι α) : Prop := c.receiver = true → c.waiting ≠ [] → c.available = 0

theorem tight_new (n : Nat) : (new n : Channel ι α).Tight := fun _ h => absurd rfl h

theorem Tight.reserve {c : Channel ι α} (h : c.Tight) (i : ι) (a : α) : (c.reserve i a).Tight := by
  unfold Channel.reserve
  split
  · rename_i hout
    exact fun _ _ => hout
  · rename_i hfree
    intro hreceiver hwaiting
    exact absurd (h hreceiver hwaiting) hfree

/-- The first in line gets the permit that has come free. -/
theorem tight_pass {c : Channel ι α} (h : c.receiver = true → c.waiting ≠ [] → c.available ≤ 1) :
    c.pass.Tight := by
  unfold pass
  split
  · rename_i hnone
    exact fun _ hwaiting => absurd hnone hwaiting
  · rename_i first rest hwaiting
    intro hreceiver _
    have hle := h hreceiver (by rw [hwaiting]; nofun)
    unfold available at hle ⊢
    rw [List.length_append, List.length_singleton]
    dsimp only
    omega

theorem Tight.recv {c c' : Channel ι α} {a : α} (h : c.Tight) (hrecv : c.recv = some (a, c')) :
    c'.Tight := by
  unfold Channel.recv at hrecv
  split at hrecv
  · cases hrecv
  · rename_i rest hbuffer
    cases hrecv
    refine tight_pass fun hreceiver hwaiting => ?_
    have hout := h hreceiver hwaiting
    unfold available at hout ⊢
    rw [hbuffer, List.length_cons] at hout
    dsimp only
    omega

theorem tight_dropReceiver (c : Channel ι α) : c.dropReceiver.Tight := nofun

section Senders

variable [DecidableEq ι]

theorem Tight.complete {c c' : Channel ι α} {i : ι} {a : α} (h : c.Tight)
    (hcomplete : c.complete i = some (a, c')) : c'.Tight := by
  obtain ⟨g, hfound, heq⟩ := Option.map_eq_some_iff.mp hcomplete
  cases heq
  have hlength := length_eraseP_granted ⟨g, List.mem_of_find?_eq_some hfound,
    List.find?_some (p := fun g : ι × α => decide (g.1 = i)) hfound⟩
  intro hreceiver hwaiting
  have hout := h hreceiver hwaiting
  unfold available at hout ⊢
  rw [List.length_append, List.length_singleton]
  dsimp only
  omega

theorem Tight.abandon {c : Channel ι α} (h : c.Tight) (i : ι) : (c.abandon i).Tight := by
  unfold Channel.abandon
  split
  · rename_i hany
    have hlength := length_eraseP_granted (List.any_eq_true.mp hany)
    refine tight_pass fun hreceiver hwaiting => ?_
    have hout := h hreceiver hwaiting
    unfold available at hout ⊢
    dsimp only
    omega
  · intro hreceiver hwaiting
    refine h hreceiver fun hnone => hwaiting ?_
    dsimp only
    rw [hnone]
    rfl

end Senders

/-! ## Who is in line -/

/-- The senders on their way. -/
def senders (c : Channel ι α) : List ι := c.line.map Prod.fst

theorem senders_recv {c c' : Channel ι α} {a : α} (h : c.recv = some (a, c')) :
    c'.senders = c.senders := by
  rw [senders, (recv_eq_some h).2.1, senders]

theorem senders_reserve (c : Channel ι α) (i : ι) (a : α) :
    (c.reserve i a).senders.Perm (i :: c.senders) := by
  unfold reserve await senders line
  split
  · rw [← List.append_assoc, List.map_append]
    exact List.perm_append_singleton i _
  · rw [List.append_assoc, List.map_append, List.map_append, List.map_append]
    exact List.perm_middle

section Senders

variable [DecidableEq ι]

/-- Who is erased was in the list once more. -/
theorem perm_eraseP {l : List (ι × α)} {i : ι} (h : (l.any fun g => g.1 = i) = true) :
    (l.map Prod.fst).Perm (i :: (l.eraseP fun g => g.1 = i).map Prod.fst) := by
  obtain ⟨g, hg, hi⟩ := List.any_eq_true.mp h
  obtain ⟨g', before, after, -, hi', hl, herased⟩ :=
    List.exists_of_eraseP (p := fun g : ι × α => decide (g.1 = i)) hg hi
  rw [herased, hl, List.map_append, List.map_cons, List.map_append, of_decide_eq_true hi']
  exact List.perm_middle

theorem senders_complete {c c' : Channel ι α} {i : ι} {a : α} (h : c.complete i = some (a, c')) :
    c.senders.Perm (i :: c'.senders) := by
  obtain ⟨g, hfound, heq⟩ := Option.map_eq_some_iff.mp h
  cases heq
  have hany : (c.granted.any fun g => g.1 = i) = true :=
    List.any_eq_true.mpr ⟨g, List.mem_of_find?_eq_some hfound,
      List.find?_some (p := fun g : ι × α => decide (g.1 = i)) hfound⟩
  unfold senders line
  rw [List.map_append, List.map_append]
  exact (perm_eraseP hany).append_right _

theorem senders_abandon {c : Channel ι α} {i : ι} (h : i ∈ c.senders) :
    c.senders.Perm (i :: (c.abandon i).senders) := by
  unfold abandon
  split
  · rename_i hany
    unfold senders
    rw [line_pass]
    unfold line
    rw [List.map_append, List.map_append]
    exact (perm_eraseP hany).append_right _
  · rename_i hnot
    have hany : (c.waiting.any fun w => w.1 = i) = true := by
      obtain ⟨g, hg, rfl⟩ := List.mem_map.mp h
      rcases List.mem_append.mp hg with hgranted | hwaiting
      · exact absurd (List.any_eq_true.mpr ⟨g, hgranted, decide_eq_true rfl⟩) hnot
      · exact List.any_eq_true.mpr ⟨g, hwaiting, decide_eq_true rfl⟩
    unfold senders line
    rw [List.map_append, List.map_append]
    exact ((perm_eraseP hany).append_left _).trans List.perm_middle

/-- A sender with a permit can send. -/
theorem exists_complete {c : Channel ι α} {g : ι × α} (h : g ∈ c.granted) :
    ∃ r, c.complete g.1 = some r := by
  have hsome : (c.granted.find? fun g' => g'.1 = g.1).isSome = true :=
    List.find?_isSome.mpr ⟨g, h, decide_eq_true rfl⟩
  obtain ⟨g', hg'⟩ := Option.isSome_iff_exists.mp hsome
  exact ⟨_, by rw [complete, hg']; rfl⟩

end Senders

/-! ## The same channel with other messages -/

/-- Every message is replaced. -/
def map (f : α → β) (c : Channel ι α) : Channel ι β where
  buffer := c.buffer.map f
  capacity := c.capacity
  granted := c.granted.map fun g => (g.1, f g.2)
  waiting := c.waiting.map fun w => (w.1, f w.2)
  receiver := c.receiver

variable (f : α → β) (c : Channel ι α)

@[simp] theorem map_new (n : Nat) : (new n : Channel ι α).map f = new n := rfl

@[simp] theorem available_map : (c.map f).available = c.available := by
  simp [available, map]

@[simp] theorem receiver_map : (c.map f).receiver = c.receiver := rfl

@[simp] theorem capacity_map : (c.map f).capacity = c.capacity := rfl

theorem trySend_map (a : α) : (c.map f).trySend (f a) = (c.trySend a).map (map f) := by
  unfold trySend
  rw [receiver_map, available_map]
  cases c.receiver with
  | false => rfl
  | true =>
    by_cases h : c.available = 0
    · simp [h, Except.map]
    · simp [h, Except.map, map]

theorem await_map (i : ι) (a : α) : (c.map f).await i (f a) = (c.await i a).map f := by
  simp [await, map]

theorem pass_map : (c.map f).pass = c.pass.map f := by
  obtain ⟨buffer, capacity, granted, waiting, receiver⟩ := c
  cases waiting with
  | nil => rfl
  | cons first rest => simp [pass, map]

theorem recv_map : (c.map f).recv = c.recv.map fun r => (f r.1, r.2.map f) := by
  obtain ⟨buffer, capacity, granted, waiting, receiver⟩ := c
  cases buffer with
  | nil => rfl
  | cons a rest =>
    have hpass := pass_map f (⟨rest, capacity, granted, waiting, receiver⟩ : Channel ι α)
    simp only [recv, map, List.map_cons, Option.map_some] at hpass ⊢
    rw [hpass]

theorem dropReceiver_map : (c.map f).dropReceiver = c.dropReceiver.map f := rfl

section Senders

variable [DecidableEq ι] (i : ι)

theorem eraseP_map (l : List (ι × α)) :
    ((l.map fun g => (g.1, f g.2)).eraseP fun g => g.1 = i)
      = (l.eraseP fun g => g.1 = i).map fun g => (g.1, f g.2) := by
  rw [List.eraseP_map]
  rfl

theorem complete_map :
    (c.map f).complete i = (c.complete i).map fun r => (f r.1, r.2.map f) := by
  unfold complete
  simp only [map, List.find?_map, eraseP_map, Option.map_map, Function.comp_def, List.map_append,
    List.map_cons, List.map_nil]

theorem holds_map : (c.map f).holds i = c.holds i := by
  simp [holds, map, List.any_map, Function.comp_def]

theorem abandon_map : (c.map f).abandon i = (c.abandon i).map f := by
  have hany : ((c.map f).granted.any fun g => g.1 = i) = c.granted.any fun g => g.1 = i := by
    simp [map, List.any_map, Function.comp_def]
  unfold abandon
  rw [hany]
  split
  · rw [← pass_map]
    simp only [map, eraseP_map]
  · simp only [map, eraseP_map]

end Senders

end Channel
end Permits
