import Mathlib.Logic.Function.Basic
import Realtinet.SortedSet
import Realtinet.TransitionSystem

/-! `UdpChatServer` with its list of connections, which the threads of the server share. `onConnection` changes the list
under `mutex_`; `onStringMessage` takes the mutex only to copy the pointer to it, and goes through the list while others
may change it. So `onConnection` replaces a list that somebody else points to by a copy before it changes it.

The lists are objects on a heap. An iterator points to an element of the list as it is at each moment: were the list
changed under it, the model would see it. `send` of a connection may fail and call `onConnection` of the same thread. -/

namespace Realtinet

open TransitionSystem

namespace UdpChatServer

/-- `onStringMessage` of a thread: `connections` points to the list, `it` is the iterator, null at the end, and `sent`
are the connections the message has been sent to, in order. -/
structure Broadcast where
  thread : Nat
  connections : Nat
  it : Option Nat
  sent : List Nat
  deriving DecidableEq, Repr

/-- `onConnection` of a thread that holds `mutex_`, before or after it has seen to it that the list is not shared. -/
structure Update where
  conn : Nat
  unshared : Bool
  deriving DecidableEq, Repr

end UdpChatServer

open UdpChatServer in
/-- `lists` is the heap, of which `allocated` lists have been used; `connections` is `connections_`; `calls` are the
calls of `onConnection` that are over, latest first, with what `connected()` said. -/
structure UdpChatServer where
  lists : Nat → SortedSet Nat
  allocated : Nat
  connections : Nat
  broadcasts : List Broadcast
  updating : Option Update
  calls : List (Nat × Bool)

namespace UdpChatServer

def new : UdpChatServer where
  lists := fun _ => .empty
  allocated := 1
  connections := 0
  broadcasts := []
  updating := none
  calls := []

/-- `use_count` of the pointers to a list. -/
def useCount (list : Nat) (s : UdpChatServer) : Nat :=
  (if s.connections = list then 1 else 0) + s.broadcasts.countP (·.connections == list)

def find (thread : Nat) (s : UdpChatServer) : Option Broadcast := s.broadcasts.find? (·.thread == thread)

/-- A thread enters `onConnection` and has the mutex; it replaces the list if it is shared; it changes the list and
gives the mutex back; a thread enters `onStringMessage` and copies `connections_`; it sends the message to the next
connection; it is through, and its pointer goes. -/
inductive Input where
  | onConnection (conn : Nat)
  | unshare
  | change (connected : Bool)
  | getConnectionList (thread : Nat)
  | send (thread : Nat)
  | release (thread : Nat)
  deriving DecidableEq, Repr

/-- Not an input for this state; the assert `connections_.unique()`; an iterator that points to nothing. -/
inductive Halt where
  | notEnabled
  | notUnique
  | invalidIterator
  deriving DecidableEq, Repr

/-- What `onConnection` does to the list. -/
def insertOrErase (connected : Bool) (conn : Nat) (list : SortedSet Nat) : SortedSet Nat :=
  if connected then list.insert conn else list.erase conn

def step (s : UdpChatServer) : Input → Except Halt UdpChatServer
  | .onConnection conn =>
      match s.updating with
      | none => .ok { s with updating := some ⟨conn, false⟩ }
      | some _ => .error .notEnabled
  | .unshare =>
      match s.updating with
      | some ⟨conn, false⟩ =>
          if s.useCount s.connections = 1 then .ok { s with updating := some ⟨conn, true⟩ }
          else
            .ok { s with
              lists := Function.update s.lists s.allocated (s.lists s.connections)
              allocated := s.allocated + 1
              connections := s.allocated
              updating := some ⟨conn, true⟩ }
      | _ => .error .notEnabled
  | .change connected =>
      match s.updating with
      | some ⟨conn, true⟩ =>
          if s.useCount s.connections = 1 then
            .ok { s with
              lists := Function.update s.lists s.connections (insertOrErase connected conn (s.lists s.connections))
              updating := none
              calls := (conn, connected) :: s.calls }
          else .error .notUnique
      | _ => .error .notEnabled
  | .getConnectionList thread =>
      match s.updating, s.find thread with
      | none, none =>
          .ok { s with
            broadcasts := ⟨thread, s.connections, (s.lists s.connections).first, []⟩ :: s.broadcasts }
      | _, _ => .error .notEnabled
  | .send thread =>
      match s.find thread with
      | some b =>
          match b.it with
          | some conn =>
              if conn ∈ s.lists b.connections then
                .ok { s with
                  broadcasts := { b with it := (s.lists b.connections).next conn, sent := b.sent ++ [conn] } ::
                    s.broadcasts.erase b }
              else .error .invalidIterator
          | none => .error .notEnabled
      | none => .error .notEnabled
  | .release thread =>
      match s.find thread with
      | some b =>
          match b.it with
          | none => .ok { s with broadcasts := s.broadcasts.erase b }
          | some _ => .error .notEnabled
      | none => .error .notEnabled

/-- The servers some run leads to. -/
def Run (inputs : List Input) (s : UdpChatServer) : Prop := run step new inputs = .ok s

variable {s s' t : UdpChatServer} {i : Input} {b : Broadcast} {inputs : List Input}

/-- What a step can do, one case for each branch of the source. -/
inductive Outcome (s : UdpChatServer) : Input → UdpChatServer → Prop where
  | locked {conn : Nat} (hfree : s.updating = none) :
      Outcome s (.onConnection conn) { s with updating := some ⟨conn, false⟩ }
  | unique {conn : Nat} (hupdating : s.updating = some ⟨conn, false⟩) (hcount : s.useCount s.connections = 1) :
      Outcome s .unshare { s with updating := some ⟨conn, true⟩ }
  | copied {conn : Nat} (hupdating : s.updating = some ⟨conn, false⟩) :
      Outcome s .unshare { s with
        lists := Function.update s.lists s.allocated (s.lists s.connections)
        allocated := s.allocated + 1
        connections := s.allocated
        updating := some ⟨conn, true⟩ }
  | changed {conn : Nat} {connected : Bool} (hupdating : s.updating = some ⟨conn, true⟩) :
      Outcome s (.change connected) { s with
        lists := Function.update s.lists s.connections (insertOrErase connected conn (s.lists s.connections))
        updating := none
        calls := (conn, connected) :: s.calls }
  | begun {thread : Nat} (hfree : s.updating = none) (hfind : s.find thread = none) :
      Outcome s (.getConnectionList thread) { s with
        broadcasts := ⟨thread, s.connections, (s.lists s.connections).first, []⟩ :: s.broadcasts }
  | sent {thread : Nat} {b : Broadcast} {conn : Nat} (hfind : s.find thread = some b) (hit : b.it = some conn) :
      Outcome s (.send thread) { s with
        broadcasts := { b with it := (s.lists b.connections).next conn, sent := b.sent ++ [conn] } ::
          s.broadcasts.erase b }
  | released {thread : Nat} {b : Broadcast} (hfind : s.find thread = some b) (hit : b.it = none) :
      Outcome s (.release thread) { s with broadcasts := s.broadcasts.erase b }

theorem step_outcome (hstep : s.step i = .ok s') : Outcome s i s' := by
  cases i with
  | onConnection conn =>
      simp only [step] at hstep
      split at hstep
      · cases hstep
        exact .locked ‹_›
      · cases hstep
  | unshare =>
      simp only [step] at hstep
      split at hstep
      · split_ifs at hstep with hcount
        · cases hstep
          exact .unique ‹_› hcount
        · cases hstep
          exact .copied ‹_›
      · cases hstep
  | change connected =>
      simp only [step] at hstep
      split at hstep
      · split_ifs at hstep
        cases hstep
        exact .changed ‹_›
      · cases hstep
  | getConnectionList thread =>
      simp only [step] at hstep
      split at hstep
      · cases hstep
        exact .begun ‹_› ‹_›
      · cases hstep
  | send thread =>
      simp only [step] at hstep
      split at hstep
      · split at hstep
        · split_ifs at hstep
          cases hstep
          exact .sent ‹_› ‹_›
        · cases hstep
      · cases hstep
  | release thread =>
      simp only [step] at hstep
      split at hstep
      · split at hstep
        · cases hstep
          exact .released ‹_› ‹_›
        · cases hstep
      · cases hstep

/-! ### What an iterator has passed -/

/-- The broadcast has come through the front of `list`, in order, and its iterator is at the next element. -/
def InOrder (list : List Nat) (b : Broadcast) : Prop := ∃ rest, list = b.sent ++ rest ∧ b.it = rest.head?

theorem InOrder.sent_prefix {list : List Nat} (h : InOrder list b) : b.sent <+: list := by
  obtain ⟨rest, hlist, -⟩ := h
  exact ⟨rest, hlist.symm⟩

theorem InOrder.sent_eq {list : List Nat} (h : InOrder list b) (hit : b.it = none) : b.sent = list := by
  obtain ⟨rest, hlist, hhead⟩ := h
  rw [hit, eq_comm, List.head?_eq_none_iff] at hhead
  rw [hlist, hhead, List.append_nil]

theorem InOrder.next {set : SortedSet Nat} {conn : Nat} (h : InOrder set.elems b) (hit : b.it = some conn) :
    InOrder set.elems { b with it := set.next conn, sent := b.sent ++ [conn] } := by
  obtain ⟨rest, hlist, hhead⟩ := h
  rw [hit, eq_comm, List.head?_eq_some_iff] at hhead
  obtain ⟨after, rfl⟩ := hhead
  exact ⟨after, by simpa using hlist, SortedSet.next_of_split hlist⟩

/-! ### A list that is shared does not change -/

/-- Every broadcast is in order over the list it points to, and while a thread is about to change `connections_`, no
broadcast points to that list. -/
structure Frozen (s : UdpChatServer) : Prop where
  connections_lt : s.connections < s.allocated
  lists_lt : ∀ b ∈ s.broadcasts, b.connections < s.allocated
  inOrder : ∀ b ∈ s.broadcasts, InOrder (s.lists b.connections).elems b
  unshared : ∀ conn, s.updating = some ⟨conn, true⟩ → ∀ b ∈ s.broadcasts, b.connections ≠ s.connections

theorem unshared_of_useCount (hcount : s.useCount s.connections = 1) :
    ∀ b ∈ s.broadcasts, b.connections ≠ s.connections := by
  simp only [useCount, if_true] at hcount
  have hzero : s.broadcasts.countP (·.connections == s.connections) = 0 := by omega
  intro b hb heq
  exact List.countP_eq_zero.mp hzero b hb (by simpa using heq)

theorem useCount_of_unshared (h : ∀ b ∈ s.broadcasts, b.connections ≠ s.connections) :
    s.useCount s.connections = 1 := by
  have hzero : s.broadcasts.countP (·.connections == s.connections) = 0 := by
    rw [List.countP_eq_zero]
    intro b hb
    simpa using h b hb
  simp [useCount, hzero]

theorem mem_of_find {thread : Nat} (hfind : s.find thread = some b) : b ∈ s.broadcasts := List.mem_of_find?_eq_some hfind

theorem thread_of_find {thread : Nat} (hfind : s.find thread = some b) : b.thread = thread := by
  simpa using List.find?_some hfind

theorem frozen_step (h : Frozen s) (hstep : s.step i = .ok s') : Frozen s' := by
  cases step_outcome hstep with
  | locked hfree => exact ⟨h.connections_lt, h.lists_lt, h.inOrder, nofun⟩
  | unique hupdating hcount =>
      exact ⟨h.connections_lt, h.lists_lt, h.inOrder, fun _ _ => unshared_of_useCount hcount⟩
  | copied hupdating =>
      -- The copy stands where no list stood; whoever points to the old one still does.
      have hne : ∀ b ∈ s.broadcasts, b.connections ≠ s.allocated := fun b hb => Nat.ne_of_lt (h.lists_lt b hb)
      refine ⟨Nat.lt_succ_self _, fun b hb => Nat.lt_succ_of_lt (h.lists_lt b hb), ?_, fun _ _ => hne⟩
      intro b hb
      simp only [Function.update_of_ne (hne b hb)]
      exact h.inOrder b hb
  | changed hupdating =>
      refine ⟨h.connections_lt, h.lists_lt, ?_, nofun⟩
      intro b hb
      simp only [Function.update_of_ne (h.unshared _ hupdating b hb)]
      exact h.inOrder b hb
  | begun hfree hfind =>
      refine ⟨h.connections_lt, ?_, ?_, ?_⟩
      · intro b hb
        rcases List.mem_cons.mp hb with rfl | hb
        · exact h.connections_lt
        · exact h.lists_lt b hb
      · intro b hb
        rcases List.mem_cons.mp hb with rfl | hb
        · exact ⟨(s.lists s.connections).elems, rfl, rfl⟩
        · exact h.inOrder b hb
      · intro conn hupdating
        rw [show s.updating = some ⟨conn, true⟩ from hupdating] at hfree
        cases hfree
  | @sent thread b conn hfind hit =>
      have hmem := mem_of_find hfind
      refine ⟨h.connections_lt, ?_, ?_, ?_⟩
      · intro b' hb'
        rcases List.mem_cons.mp hb' with rfl | hb'
        · exact h.lists_lt b hmem
        · exact h.lists_lt b' (List.mem_of_mem_erase hb')
      · intro b' hb'
        rcases List.mem_cons.mp hb' with rfl | hb'
        · exact (h.inOrder b hmem).next hit
        · exact h.inOrder b' (List.mem_of_mem_erase hb')
      · intro c hupdating b' hb'
        rcases List.mem_cons.mp hb' with rfl | hb'
        · exact h.unshared c hupdating b hmem
        · exact h.unshared c hupdating b' (List.mem_of_mem_erase hb')
  | released hfind hit =>
      refine ⟨h.connections_lt, ?_, ?_, ?_⟩
      · exact fun b' hb' => h.lists_lt b' (List.mem_of_mem_erase hb')
      · exact fun b' hb' => h.inOrder b' (List.mem_of_mem_erase hb')
      · exact fun c hupdating b' hb' => h.unshared c hupdating b' (List.mem_of_mem_erase hb')

theorem frozen_new : Frozen new := ⟨by decide, nofun, nofun, nofun⟩

theorem frozen_run (hrun : Run inputs s) : Frozen s := run_invariant (fun _ _ _ => frozen_step) frozen_new hrun

/-- The broadcast of `thread`, until it is over, points to the list `list`, which keeps its elements. -/
structure Follows (thread list : Nat) (elems : List Nat) (s : UdpChatServer) : Prop where
  frozen : Frozen s
  elems_eq : (s.lists list).elems = elems
  found : ∃ b, s.find thread = some b ∧ b.connections = list

theorem find?_erase_of_neg {l : List Broadcast} {thread : Nat} (hne : b.thread ≠ thread) :
    (l.erase b).find? (·.thread == thread) = l.find? (·.thread == thread) := by
  induction l with
  | nil => rfl
  | cons x rest ih =>
      by_cases hx : x = b
      · subst hx
        simp [hne]
      · rw [List.erase_cons_tail (by simpa using hx), List.find?_cons, List.find?_cons, ih]

theorem follows_step {thread list : Nat} {elems : List Nat} (h : Follows thread list elems s)
    (hi : i ≠ .release thread) (hstep : s.step i = .ok s') : Follows thread list elems s' := by
  have hfrozen := frozen_step h.frozen hstep
  obtain ⟨b, hb, hlist⟩ := h.found
  cases step_outcome hstep with
  | locked hfree => exact ⟨hfrozen, h.elems_eq, b, hb, hlist⟩
  | unique hupdating hcount => exact ⟨hfrozen, h.elems_eq, b, hb, hlist⟩
  | copied hupdating =>
      have hne : list ≠ s.allocated := hlist ▸ Nat.ne_of_lt (h.frozen.lists_lt b (mem_of_find hb))
      refine ⟨hfrozen, ?_, b, hb, hlist⟩
      simp only [Function.update_of_ne hne]
      exact h.elems_eq
  | changed hupdating =>
      have hne : list ≠ s.connections := hlist ▸ h.frozen.unshared _ hupdating b (mem_of_find hb)
      refine ⟨hfrozen, ?_, b, hb, hlist⟩
      simp only [Function.update_of_ne hne]
      exact h.elems_eq
  | @begun other hfree hfind =>
      have hne : other ≠ thread := by
        rintro rfl
        rw [hb] at hfind
        cases hfind
      refine ⟨hfrozen, h.elems_eq, b, ?_, hlist⟩
      simp only [find, List.find?_cons, show (other == thread) = false by simpa using hne]
      exact hb
  | @sent other b' conn hfind hit =>
      have hthread := thread_of_find hfind
      by_cases heq : other = thread
      · subst heq
        rw [hb] at hfind
        cases hfind
        refine ⟨hfrozen, h.elems_eq, { b with it := (s.lists b.connections).next conn, sent := b.sent ++ [conn] }, ?_,
          hlist⟩
        simp [find, hthread]
      · refine ⟨hfrozen, h.elems_eq, b, ?_, hlist⟩
        simp only [find, List.find?_cons, hthread, show (other == thread) = false by simpa using heq]
        rw [find?_erase_of_neg (hthread ▸ heq)]
        exact hb
  | @released other b' hfind hit =>
      have hthread := thread_of_find hfind
      have heq : other ≠ thread := by
        rintro rfl
        exact hi rfl
      refine ⟨hfrozen, h.elems_eq, b, ?_, hlist⟩
      simp only [find]
      rw [find?_erase_of_neg (hthread ▸ heq)]
      exact hb

/-- **A message goes to those who were there when it came.** Whatever connections come and go meanwhile, in other
threads or because a `send` of this broadcast fails: a broadcast sends to the connections that were in the list when it
took it, in their order, and it ends only when it has sent to each of them. -/
theorem message_reaches_all (inputs later : List Input) (s s₁ t : UdpChatServer) (thread : Nat)
    (hrun : Run inputs s) (hbegin : s.step (.getConnectionList thread) = .ok s₁)
    (hlater : run step s₁ later = .ok t) (hrelease : Input.release thread ∉ later) :
    ∃ b, t.find thread = some b ∧ b.sent <+: (s.lists s.connections).elems ∧
      ((t.step (.release thread)).isOk = true → b.sent = (s.lists s.connections).elems) := by
  have hfirst : Follows thread s.connections (s.lists s.connections).elems s₁ := by
    have hfrozen := frozen_step (frozen_run hrun) hbegin
    cases step_outcome hbegin with
    | begun hfree hfind =>
        refine ⟨hfrozen, rfl, ⟨thread, s.connections, (s.lists s.connections).first, []⟩, ?_, rfl⟩
        simp [find]
  have halong : Along step (fun _ i => i ≠ Input.release thread) s₁ later := by
    refine along_of_mem ?_ s₁
    rintro i hi rfl
    exact hrelease hi
  have hlast : Follows thread s.connections (s.lists s.connections).elems t :=
    run_invariant_along (fun _ _ _ h hi hstep => follows_step h hi hstep) hfirst halong hlater
  obtain ⟨b, hb, hlist⟩ := hlast.found
  have hinOrder := hlast.frozen.inOrder b (mem_of_find hb)
  rw [hlist, hlast.elems_eq] at hinOrder
  refine ⟨b, hb, hinOrder.sent_prefix, ?_⟩
  intro hok
  refine hinOrder.sent_eq ?_
  simp only [step, hb] at hok
  split at hok
  · assumption
  · cases hok

/-- Two connections are in the list; while the message is on its way, the first one goes down and a third comes. -/
theorem message_reaches_all_changedMeanwhile :
    ∃ s s₁ t b, Run [.onConnection 64, .unshare, .change true, .onConnection 128, .unshare, .change true] s ∧
      s.step (.getConnectionList 1) = .ok s₁ ∧
      run step s₁ [.send 1, .onConnection 64, .unshare, .change false, .onConnection 192, .unshare, .change true,
        .send 1] = .ok t ∧
      t.find 1 = some b ∧ b.sent = [64, 128] ∧ (t.lists t.connections).elems = [128, 192] := by
  have hruns : ∃ s s₁ t, Run [.onConnection 64, .unshare, .change true, .onConnection 128, .unshare, .change true] s ∧
      s.step (.getConnectionList 1) = .ok s₁ ∧
      run step s₁ [.send 1, .onConnection 64, .unshare, .change false, .onConnection 192, .unshare, .change true,
        .send 1] = .ok t ∧
      (s.lists s.connections).elems = [64, 128] ∧ (t.step (.release 1)).isOk = true ∧
      (t.lists t.connections).elems = [128, 192] := ⟨_, _, _, rfl, rfl, rfl, by decide, by decide, by decide⟩
  obtain ⟨s, s₁, t, hrun, hbegin, hlater, hlist, hok, hnow⟩ := hruns
  obtain ⟨b, hb, -, hall⟩ := message_reaches_all _ _ s s₁ t 1 hrun hbegin hlater (by decide)
  exact ⟨s, s₁, t, b, hrun, hbegin, hlater, hb, (hall hok).trans hlist, hnow⟩

/-! ### The list is up to date -/

/-- What `connected()` said in the latest call of `onConnection` for `conn`. -/
def latest (conn : Nat) (calls : List (Nat × Bool)) : Option Bool := (calls.find? (·.1 == conn)).map Prod.snd

structure UpToDate (s : UdpChatServer) : Prop where
  frozen : Frozen s
  mem_iff : ∀ conn, conn ∈ s.lists s.connections ↔ latest conn s.calls = some true

theorem mem_insertOrErase {connected : Bool} {conn other : Nat} {list : SortedSet Nat} :
    other ∈ insertOrErase connected conn list ↔ if conn = other then connected = true else other ∈ list := by
  rw [insertOrErase]
  by_cases heq : conn = other
  · subst heq
    cases connected <;> simp
  · cases connected <;> simp [heq, Ne.symm heq]

theorem upToDate_step (h : UpToDate s) (hstep : s.step i = .ok s') : UpToDate s' := by
  have hfrozen := frozen_step h.frozen hstep
  cases step_outcome hstep with
  | locked hfree => exact ⟨hfrozen, h.mem_iff⟩
  | unique hupdating hcount => exact ⟨hfrozen, h.mem_iff⟩
  | copied hupdating =>
      refine ⟨hfrozen, ?_⟩
      simp only [Function.update_self]
      exact h.mem_iff
  | @changed conn connected hupdating =>
      refine ⟨hfrozen, ?_⟩
      intro other
      simp only [Function.update_self, mem_insertOrErase, latest, List.find?_cons]
      by_cases heq : conn = other
      · simp [heq]
      · simp only [heq, if_false, show (conn == other) = false by simpa using heq]
        exact h.mem_iff other
  | begun hfree hfind => exact ⟨hfrozen, h.mem_iff⟩
  | sent hfind hit => exact ⟨hfrozen, h.mem_iff⟩
  | released hfind hit => exact ⟨hfrozen, h.mem_iff⟩

theorem upToDate_new : UpToDate new := ⟨frozen_new, fun _ => iff_of_false SortedSet.not_mem_empty nofun⟩

theorem step_error {e : Halt} (h : Frozen s) (hstep : s.step i = .error e) : e = .notEnabled := by
  cases i with
  | onConnection conn =>
      simp only [step] at hstep
      split at hstep
      · cases hstep
      · cases hstep
        rfl
  | unshare =>
      simp only [step] at hstep
      split at hstep
      · split_ifs at hstep
      · cases hstep
        rfl
  | change connected =>
      simp only [step] at hstep
      split at hstep
      · rename_i hupdating
        rw [if_pos (useCount_of_unshared (h.unshared _ hupdating))] at hstep
        cases hstep
      · cases hstep
        rfl
  | getConnectionList thread =>
      simp only [step] at hstep
      split at hstep
      · cases hstep
      · cases hstep
        rfl
  | send thread =>
      simp only [step] at hstep
      split at hstep
      · rename_i b hfind
        split at hstep
        · rename_i conn hit
          -- The iterator points into the list, which is as it was when the iterator was made.
          have hmem : conn ∈ s.lists b.connections := by
            obtain ⟨rest, hlist, hhead⟩ := h.inOrder b (mem_of_find hfind)
            rw [SortedSet.mem_def, hlist]
            exact List.mem_append_right _ (List.mem_of_head? (hhead.symm.trans hit))
          rw [if_pos hmem] at hstep
          cases hstep
        · cases hstep
          rfl
      · cases hstep
        rfl
  | release thread =>
      simp only [step] at hstep
      split at hstep
      · split at hstep
        · cases hstep
        · cases hstep
          rfl
      · cases hstep
        rfl

/-- **The list is up to date and never changed under an iterator.** In every interleaving of the threads: the list has
exactly the connections for which the latest call of `onConnection` found them connected; the assert that the list is
not shared when it is changed does not fail, and no iterator becomes invalid. -/
theorem connection_list_up_to_date (inputs : List Input) :
    (∀ s, Run inputs s → ∀ conn, conn ∈ s.lists s.connections ↔ latest conn s.calls = some true) ∧
      ∀ e, run step new inputs = .error e → e = .notEnabled := by
  refine ⟨fun s hrun => ?_, fun e herror => ?_⟩
  · have hlist : UpToDate s := run_invariant (fun _ _ _ => upToDate_step) upToDate_new hrun
    exact hlist.mem_iff
  · by_contra hne
    have hall : Along step (fun _ _ => True) new inputs := along_of_forall (fun _ _ => trivial) _ _
    refine run_ne_error_along Frozen (fun _ _ _ h _ hstep => frozen_step h hstep) ?_ frozen_new hall herror
    intro s i h _ hstep
    exact hne (step_error h hstep)

/-- A connection goes down while a broadcast holds the list it is in. -/
theorem connection_list_up_to_date_shared :
    ∃ s, Run [.onConnection 64, .unshare, .change true, .getConnectionList 1, .onConnection 64, .unshare,
        .change false] s ∧ s.find 1 = some ⟨1, 0, some 64, []⟩ ∧ 64 ∉ s.lists s.connections := by
  have hruns : ∃ s, Run [.onConnection 64, .unshare, .change true, .getConnectionList 1, .onConnection 64, .unshare,
      .change false] s ∧ s.find 1 = some ⟨1, 0, some 64, []⟩ ∧ s.calls = [(64, false), (64, true)] :=
    ⟨_, rfl, by decide, rfl⟩
  obtain ⟨s, hrun, hfind, hcalls⟩ := hruns
  refine ⟨s, hrun, hfind, ?_⟩
  rw [(connection_list_up_to_date _).1 s hrun, hcalls]
  decide

end UdpChatServer
end Realtinet
