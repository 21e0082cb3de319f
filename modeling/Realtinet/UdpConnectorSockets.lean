import Mathlib.Data.List.Nodup
import Mathlib.Data.List.Perm.Subperm
import Realtinet.UdpConnectorStates

/-! Who owns the sockets of a connector. A socket that `connect` opens is in its hands until `connected` gives it to
`newConnectionCallback_`; whatever else `connect` comes to forgets it. -/

namespace Realtinet

open TransitionSystem

/-- The socket of a call in progress that has not handed it over. -/
def ConnectorCall.socket? : ConnectorCall → Option Nat
  | .connect connectSocket => some connectSocket
  | .connected connectedSocket => some connectedSocket
  | .newConnectionCallback => none

namespace ConnectorThread

/-- The sockets in the hands of a `connect` that has not returned. -/
def inHand (w : ConnectorThread) : List Nat := w.calls.filterMap ConnectorCall.socket?

/-- `connect` does not drop its socket at this input: `connect(2)` ends in the first group of the `switch`, and
`connected` finds `connect_` still set. -/
def KeepsSocket (w : ConnectorThread) : Input → Prop
  | .connectReturns errno => errno.outcome = .connected
  | .connected => w.connector.connect_ = true
  | _ => True

instance keepsSocketDecidable (w : ConnectorThread) : ∀ i, Decidable (w.KeepsSocket i)
  | .connectReturns errno => inferInstanceAs (Decidable (errno.outcome = .connected))
  | .connected => inferInstanceAs (Decidable (w.connector.connect_ = true))
  | .start _ | .stop | .restart | .timer _ | .functor | .handleWrite _ _ | .handleError | .callbackReturns
  | .destruct _ => .isTrue trivial

/-- Every socket ever opened is owned by exactly one connection or closed. -/
def SocketsOwned (w : ConnectorThread) : Prop :=
  ∀ socket < w.nextSocket, w.connections.count socket = 1 ∨ socket ∉ w.openSockets

/-! ### What an input does to the sockets -/

/-- The sockets of both are the same, and in the same hands. -/
structure SameSockets (w w' : ConnectorThread) : Prop where
  next : w'.nextSocket = w.nextSocket
  opened : w'.openSockets = w.openSockets
  owned : w'.connections = w.connections
  hand : w'.inHand = w.inHand

/-- Nothing; a socket is opened, handed over or forgotten; the end of a connection. -/
inductive SocketEffect (w w' : ConnectorThread) (i : Input) : Prop
  | kept (hkeeps : w.KeepsSocket i) (hsame : w.SameSockets w')
  | opens (hkeeps : w.KeepsSocket i) (hnext : w'.nextSocket = w.nextSocket + 1)
      (hopen : w'.openSockets = w.openSockets ++ [w.nextSocket]) (howned : w'.connections = w.connections)
      (hhand : w'.inHand = w.nextSocket :: w.inHand)
  | handsOver (socket : Nat) (hkeeps : w.KeepsSocket i) (hnext : w'.nextSocket = w.nextSocket)
      (hopen : w'.openSockets = w.openSockets) (howned : w'.connections = w.connections ++ [socket])
      (hhand : w.inHand = socket :: w'.inHand)
  | forgets (socket : Nat) (hdrops : ¬w.KeepsSocket i) (hnext : w'.nextSocket = w.nextSocket)
      (hopen : w'.openSockets = w.openSockets) (howned : w'.connections = w.connections)
      (hhand : w.inHand = socket :: w'.inHand)
  | destructs (socket : Nat) (hkeeps : w.KeepsSocket i) (hmem : socket ∈ w.connections)
      (hnext : w'.nextSocket = w.nextSocket) (hopen : w'.openSockets = w.openSockets.erase socket)
      (howned : w'.connections = w.connections.erase socket) (hhand : w'.inHand = w.inHand)

variable {w w' : ConnectorThread} {i : Input}

theorem SameSockets.trans {w'' : ConnectorThread} (h : w.SameSockets w') (h' : w'.SameSockets w'') :
    w.SameSockets w'' :=
  ⟨h'.next.trans h.next, h'.opened.trans h.opened, h'.owned.trans h.owned, h'.hand.trans h.hand⟩

theorem sameSockets_withoutChannel {base : ConnectorThread} {rest : ConnectorThread → ConnectorThread}
    (hbase : w.SameSockets base) (hrest : ∀ w, SameSockets w (rest w)) : w.SameSockets (base.withoutChannel rest) := by
  unfold withoutChannel
  split
  · rename_i connector hconnector
    have hqueued : base.SameSockets (queueInLoop .resetChannel { base with connector := connector }) :=
      ⟨rfl, rfl, rfl, rfl⟩
    exact hbase.trans (hqueued.trans (hrest _))
  · exact hbase.trans ⟨rfl, rfl, rfl, rfl⟩

theorem sameSockets_retry (w : ConnectorThread) : w.SameSockets w.retry := ⟨rfl, rfl, rfl, rfl⟩

theorem sameSockets_stopInLoop (w : ConnectorThread) : w.SameSockets w.stopInLoop := by
  unfold stopInLoop
  split_ifs
  · exact sameSockets_withoutChannel ⟨rfl, rfl, rfl, rfl⟩ sameSockets_retry
  · exact ⟨rfl, rfl, rfl, rfl⟩

theorem sameSockets_handleWrite (err : Int) (isSelfConnect : Bool) (w : ConnectorThread) :
    w.SameSockets (w.handleWrite err isSelfConnect) := by
  unfold handleWrite
  split_ifs
  · exact sameSockets_withoutChannel ⟨rfl, rfl, rfl, rfl⟩ sameSockets_retry
  · exact sameSockets_withoutChannel ⟨rfl, rfl, rfl, rfl⟩ fun w => ⟨rfl, rfl, rfl, rfl⟩
  · exact ⟨rfl, rfl, rfl, rfl⟩
  · exact ⟨rfl, rfl, rfl, rfl⟩

theorem sameSockets_handleError (w : ConnectorThread) : w.SameSockets w.handleError := by
  unfold handleError
  split_ifs
  · exact sameSockets_withoutChannel ⟨rfl, rfl, rfl, rfl⟩ sameSockets_retry
  · exact ⟨rfl, rfl, rfl, rfl⟩

/-- The four ways of reaching `startInLoop`, with the connector and the queues as they leave them in `base`. -/
theorem effect_startInLoop {base : ConnectorThread} (hkeeps : w.KeepsSocket i) (hbase : w.SameSockets base) :
    SocketEffect w base.startInLoop i := by
  unfold startInLoop
  split_ifs
  · refine .opens hkeeps ?_ ?_ hbase.owned ?_
    · simp [connect, read, hbase.next]
    · simp [connect, read, hbase.next, hbase.opened]
    · rw [← hbase.hand, ← hbase.next]
      rfl
  · exact .kept hkeeps ⟨hbase.next, hbase.opened, hbase.owned, hbase.hand⟩
  · exact .kept hkeeps ⟨hbase.next, hbase.opened, hbase.owned, hbase.hand⟩

theorem effect_runFunctor {base : ConnectorThread} (hkeeps : w.KeepsSocket i) (hbase : w.SameSockets base)
    (functor : ConnectorFunctor) : SocketEffect w (base.runFunctor functor) i := by
  cases functor with
  | startInLoop => exact effect_startInLoop hkeeps hbase
  | stopInLoop => exact .kept hkeeps (hbase.trans (sameSockets_stopInLoop base))
  | resetChannel => exact .kept hkeeps (hbase.trans ⟨rfl, rfl, rfl, rfl⟩)

theorem effect_connectReturned {socket : Nat} {rest : List ConnectorCall} (hcalls : w.calls = .connect socket :: rest)
    (errno : Errno) :
    SocketEffect w (connectReturned socket errno { w with calls := rest }) (.connectReturns errno) := by
  have hhand : w.inHand = socket :: rest.filterMap ConnectorCall.socket? := by
    simp [inHand, hcalls, ConnectorCall.socket?]
  unfold connectReturned
  split <;> rename_i hout
  · exact .kept hout ⟨rfl, rfl, rfl, hhand.symm⟩
  · exact .forgets socket (by simp [KeepsSocket, hout]) rfl rfl rfl hhand
  · exact .forgets socket (by simp [KeepsSocket, hout]) rfl rfl rfl hhand

theorem effect_connected {socket : Nat} {rest : List ConnectorCall} (hcalls : w.calls = .connected socket :: rest) :
    SocketEffect w (connected socket { w with calls := rest }) .connected := by
  have hhand : w.inHand = socket :: rest.filterMap ConnectorCall.socket? := by
    simp [inHand, hcalls, ConnectorCall.socket?]
  unfold connected
  split_ifs with hflag
  · exact .handsOver socket hflag rfl rfl rfl hhand
  · exact .forgets socket hflag rfl rfl rfl hhand

/-- **Every input does one of the listed things to the sockets.** -/
theorem next_effect (h : w.next i = some w') : SocketEffect w w' i := by
  cases i with
  | start inLoop =>
      cases inLoop with
      | true =>
          simp only [next] at h
          split_ifs at h
          cases h
          exact effect_startInLoop trivial ⟨rfl, rfl, rfl, rfl⟩
      | false =>
          cases h
          exact .kept trivial ⟨rfl, rfl, rfl, rfl⟩
  | stop =>
      cases h
      exact .kept trivial ⟨rfl, rfl, rfl, rfl⟩
  | restart =>
      simp only [next] at h
      split_ifs at h
      cases h
      exact effect_startInLoop trivial ⟨rfl, rfl, rfl, rfl⟩
  | timer index =>
      simp only [next] at h
      split_ifs at h
      cases h
      exact effect_startInLoop trivial ⟨rfl, rfl, rfl, rfl⟩
  | functor =>
      simp only [next] at h
      split at h
      · rename_i functor rest hqueue
        split_ifs at h
        cases h
        have hpopped : w.SameSockets { w with pendingFunctors := rest } := ⟨rfl, rfl, rfl, rfl⟩
        exact effect_runFunctor (i := .functor) trivial hpopped functor
      · cases h
  | handleWrite err isSelfConnect =>
      simp only [next] at h
      split_ifs at h
      cases h
      exact .kept trivial (sameSockets_handleWrite err isSelfConnect w)
  | handleError =>
      simp only [next] at h
      split_ifs at h
      cases h
      exact .kept trivial (sameSockets_handleError w)
  | connectReturns errno =>
      simp only [next] at h
      split at h
      · rename_i socket rest hcalls
        cases h
        exact effect_connectReturned hcalls errno
      · cases h
  | connected =>
      simp only [next] at h
      split at h
      · rename_i socket rest hcalls
        cases h
        exact effect_connected hcalls
      · cases h
  | callbackReturns =>
      simp only [next] at h
      split at h
      · rename_i rest hcalls
        cases h
        refine .kept trivial ⟨rfl, rfl, rfl, ?_⟩
        rw [inHand, inHand, hcalls]
        rfl
      · cases h
  | destruct socket =>
      simp only [next] at h
      split_ifs at h with hmem
      cases h
      exact .destructs socket trivial hmem rfl rfl rfl rfl

theorem step_effect (h : step w i = .ok w') : SocketEffect w w' i := by
  unfold step at h
  split_ifs at h
  split at h
  · rename_i w'' hnext
    cases h
    exact next_effect hnext
  · cases h

/-! ### The accounts -/

/-- The sockets that a connection owns or a `connect` has in its hands. -/
def kept (w : ConnectorThread) : List Nat := w.connections ++ w.inHand

structure Accounts (w : ConnectorThread) : Prop where
  openNodup : w.openSockets.Nodup
  keptNodup : w.kept.Nodup
  kept_open : w.kept ⊆ w.openSockets
  open_lt : ∀ socket ∈ w.openSockets, socket < w.nextSocket

theorem Accounts.fresh (hinv : w.Accounts) : w.nextSocket ∉ w.openSockets :=
  fun hmem => absurd (hinv.open_lt _ hmem) (Nat.lt_irrefl _)

theorem Accounts.ownedNodup (hinv : w.Accounts) : w.connections.Nodup := hinv.keptNodup.of_append_left

theorem kept_of_opens (howned : w'.connections = w.connections) (hhand : w'.inHand = w.nextSocket :: w.inHand) :
    w'.kept.Perm (w.nextSocket :: w.kept) := by
  rw [kept, howned, hhand]
  exact List.perm_middle

theorem kept_of_forgets {socket : Nat} (howned : w'.connections = w.connections)
    (hhand : w.inHand = socket :: w'.inHand) : w.kept.Perm (socket :: w'.kept) := by
  rw [kept, ← howned, hhand]
  exact List.perm_middle

/-- A socket handed over is kept as before. -/
theorem kept_of_handsOver {socket : Nat} (howned : w'.connections = w.connections ++ [socket])
    (hhand : w.inHand = socket :: w'.inHand) : w'.kept = w.kept := by
  simp [kept, howned, hhand]

/-- A connection that is destructed gives up its socket and no other. -/
theorem kept_of_destructs {socket : Nat} (hmem : socket ∈ w.connections)
    (howned : w'.connections = w.connections.erase socket) (hhand : w'.inHand = w.inHand) :
    w'.kept = w.kept.erase socket := by
  rw [kept, kept, howned, hhand, List.erase_append_left _ hmem]

theorem accounts_step (hinv : w.Accounts) (h : step w i = .ok w') : w'.Accounts := by
  obtain ⟨hopenNodup, hkeptNodup, hsub, hlt⟩ := hinv
  cases step_effect h with
  | kept hkeeps hsame =>
      obtain ⟨hnext, hopen, howned, hhand⟩ := hsame
      have hkept : w'.kept = w.kept := by rw [kept, howned, hhand, kept]
      constructor <;> simp only [hkept, hopen, hnext] <;> assumption
  | opens hkeeps hnext hopen howned hhand =>
      have hfresh := Accounts.fresh ⟨hopenNodup, hkeptNodup, hsub, hlt⟩
      have hkept := kept_of_opens howned hhand
      refine ⟨?_, ?_, ?_, ?_⟩
      · rw [hopen, ← List.concat_eq_append]
        exact List.Nodup.concat hfresh hopenNodup
      · exact hkept.nodup_iff.mpr (List.nodup_cons.mpr ⟨fun hmem => hfresh (hsub hmem), hkeptNodup⟩)
      · intro socket hmem
        rw [hopen]
        rcases List.mem_cons.mp (hkept.mem_iff.mp hmem) with rfl | hold
        · exact List.mem_append_right _ List.mem_cons_self
        · exact List.mem_append_left _ (hsub hold)
      · intro socket hmem
        rw [hnext]
        rw [hopen] at hmem
        rcases List.mem_append.mp hmem with hold | hlast
        · exact Nat.lt_succ_of_lt (hlt socket hold)
        · rw [List.mem_singleton.mp hlast]
          exact Nat.lt_succ_self _
  | handsOver socket hkeeps hnext hopen howned hhand =>
      have hkept : w'.kept = w.kept := kept_of_handsOver howned hhand
      constructor <;> simp only [hkept, hopen, hnext] <;> assumption
  | forgets socket hdrops hnext hopen howned hhand =>
      have hkept := kept_of_forgets howned hhand
      refine ⟨by rwa [hopen], ?_, ?_, ?_⟩
      · exact (List.nodup_cons.mp (hkept.nodup_iff.mp hkeptNodup)).2
      · intro s hmem
        rw [hopen]
        exact hsub (hkept.mem_iff.mpr (List.mem_cons_of_mem _ hmem))
      · rwa [hopen, hnext]
  | destructs socket hkeeps hmem hnext hopen howned hhand =>
      have hkept := kept_of_destructs hmem howned hhand
      refine ⟨?_, ?_, ?_, ?_⟩
      · rw [hopen]
        exact hopenNodup.erase socket
      · rw [hkept]
        exact hkeptNodup.erase socket
      · intro s hs
        rw [hkept, hkeptNodup.mem_erase_iff] at hs
        rw [hopen, hopenNodup.mem_erase_iff]
        exact ⟨hs.1, hsub hs.2⟩
      · intro s hs
        rw [hopen] at hs
        rw [hnext]
        exact hlt s (List.mem_of_mem_erase hs)

theorem accounts_new : new.Accounts := by
  constructor <;> simp [new, kept, inHand]

/-! ### Nothing has leaked -/

/-- On consistent accounts nothing has leaked exactly when every open socket is kept. -/
def NothingLeaked (w : ConnectorThread) : Prop := w.openSockets ⊆ w.kept

theorem nothingLeaked_step (hinv : w.Accounts) (h : step w i = .ok w') :
    w'.NothingLeaked ↔ w.NothingLeaked ∧ w.KeepsSocket i := by
  rw [NothingLeaked, NothingLeaked]
  cases step_effect h with
  | kept hkeeps hsame =>
      obtain ⟨hnext, hopen, howned, hhand⟩ := hsame
      have hkept : w'.kept = w.kept := by rw [kept, howned, hhand, kept]
      simp [hkept, hopen, hkeeps]
  | opens hkeeps hnext hopen howned hhand =>
      have hkept := kept_of_opens howned hhand
      rw [hopen, and_iff_left hkeeps]
      constructor
      · intro hsub socket hmem
        have hnew := hkept.mem_iff.mp (hsub (List.mem_append_left _ hmem))
        rcases List.mem_cons.mp hnew with rfl | hold
        · exact absurd hmem hinv.fresh
        · exact hold
      · intro hsub socket hmem
        refine hkept.mem_iff.mpr ?_
        rcases List.mem_append.mp hmem with hold | hlast
        · exact List.mem_cons_of_mem _ (hsub hold)
        · rw [List.mem_singleton.mp hlast]
          exact List.mem_cons_self
  | handsOver socket hkeeps hnext hopen howned hhand =>
      simp [kept_of_handsOver howned hhand, hopen, hkeeps]
  | forgets socket hdrops hnext hopen howned hhand =>
      have hkept := kept_of_forgets howned hhand
      refine iff_of_false (fun hsub => ?_) fun hboth => hdrops hboth.2
      -- the socket stays open and nobody has it
      have hmem : socket ∈ w.openSockets := hinv.kept_open (hkept.mem_iff.mpr List.mem_cons_self)
      rw [← hopen] at hmem
      exact (List.nodup_cons.mp (hkept.nodup_iff.mp hinv.keptNodup)).1 (hsub hmem)
  | destructs socket hkeeps hmem hnext hopen howned hhand =>
      rw [and_iff_left hkeeps, kept_of_destructs hmem howned hhand, hopen]
      have hkept : socket ∈ w.kept := List.mem_append_left _ hmem
      constructor
      · intro hsub s hs
        by_cases heq : s = socket
        · exact heq ▸ hkept
        · exact List.mem_of_mem_erase (hsub (hinv.openNodup.mem_erase_iff.mpr ⟨heq, hs⟩))
      · intro hsub s hs
        rw [hinv.openNodup.mem_erase_iff] at hs
        exact hinv.keptNodup.mem_erase_iff.mpr ⟨hs.1, hsub hs.2⟩

theorem kept_of_returned (hreturned : w.inHand = []) : w.kept = w.connections := by
  rw [kept, hreturned, List.append_nil]

theorem socketsOwned_iff_nothingLeaked (hinv : w.Accounts) (hreturned : w.inHand = []) :
    w.SocketsOwned ↔ w.NothingLeaked := by
  rw [NothingLeaked, kept_of_returned hreturned]
  constructor
  · intro howned socket hopen
    have hcount := (howned socket (hinv.open_lt socket hopen)).resolve_right (not_not.mpr hopen)
    exact List.count_pos_iff.mp (by omega)
  · intro hleak socket _
    by_cases hopen : socket ∈ w.openSockets
    · exact Or.inl (List.count_eq_one_of_mem hinv.ownedNodup (hleak hopen))
    · exact Or.inr hopen

theorem length_eq_iff_nothingLeaked (hinv : w.Accounts) (hreturned : w.inHand = []) :
    w.openSockets.length = w.connections.length ↔ w.NothingLeaked := by
  have hsub : w.kept.Subperm w.openSockets := hinv.keptNodup.subperm hinv.kept_open
  rw [NothingLeaked]
  rw [kept_of_returned hreturned] at hsub ⊢
  constructor
  · intro hlen
    exact (hsub.perm_of_length_le (by omega)).symm.subset
  · intro hleak
    exact ((hinv.openNodup.subperm hleak).antisymm hsub).length_eq

/-- **When no socket leaks.** Over every run of a connector, whenever no `connect` is in progress with a socket in its
hands, every socket it has opened is owned by one connection or closed, equivalently there are as many open
descriptors as connections, if and only if every `connect(2)` of the run has ended in the first group of the `switch`
and every `connected` has found `connect_` still set. -/
theorem socketsOwned_iff (inputs : List Input) (w : ConnectorThread) (hrun : run step new inputs = .ok w)
    (hreturned : w.inHand = []) :
    (w.SocketsOwned ↔ Along step KeepsSocket new inputs) ∧
      (w.openSockets.length = w.connections.length ↔ Along step KeepsSocket new inputs) := by
  have hinv : w.Accounts := run_invariant (fun _ _ _ h1 h2 => accounts_step h1 h2) accounts_new hrun
  have hiff : w.NothingLeaked ↔ Along step KeepsSocket new inputs := by
    refine good_iff_along Accounts NothingLeaked (fun _ _ _ h1 _ h2 => accounts_step h1 h2) ?_ ?_
      accounts_new (List.nil_subset _) (along_of_forall (fun _ _ => trivial) _ _) hrun
    · intro s j s' hs _ hgood hstep
      rw [nothingLeaked_step hs hstep]
      exact and_iff_right hgood
    · intro s j s' hs hbad hstep hgood
      exact hbad ((nothingLeaked_step hs hstep).mp hgood).1
  exact ⟨(socketsOwned_iff_nothingLeaked hinv hreturned).trans hiff,
    (length_eq_iff_nothingLeaked hinv hreturned).trans hiff⟩

/-- The first attempt is refused and will be retried; its socket stays open without an owner. -/
theorem socket_leaks_on_retry :
    ¬∀ (inputs : List Input) (w : ConnectorThread), run step new inputs = .ok w → w.inHand = [] → w.SocketsOwned := by
  intro h
  have howned := h [.start true, .connectReturns .ECONNREFUSED] _ rfl rfl 0 (by decide)
  exact absurd howned (by decide)

/-- A connection is made, its connector restarted in the callback, and the first connection destructed. -/
theorem socketsOwned_reconnect :
    ∃ w, run step new [.start true, .connectReturns .ok, .connected, .restart, .connectReturns .EINPROGRESS, .connected,
        .destruct 0, .callbackReturns, .callbackReturns] = .ok w ∧ w.SocketsOwned ∧ w.connections = [1] :=
  ⟨_, rfl, (socketsOwned_iff [.start true, .connectReturns .ok, .connected, .restart, .connectReturns .EINPROGRESS,
    .connected, .destruct 0, .callbackReturns, .callbackReturns] _ rfl rfl).1.mpr (by decide), rfl⟩

/-- Another thread stops the connector during `connect(2)`, which succeeds. -/
example : ∃ w, run step new [.start true, .stop, .connectReturns .ok, .connected] = .ok w ∧
    w.openSockets = [0] ∧ w.connections = [] := ⟨_, rfl, rfl, rfl⟩

end ConnectorThread
end Realtinet
