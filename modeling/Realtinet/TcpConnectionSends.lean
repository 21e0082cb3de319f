import Realtinet.TcpConnectionOutput

/-! Every send of a `TcpConnection` is accounted for: it is about to be queued, in the queue, taken over by `sendInLoop`,
or given up by it; and the sends of one thread stay in their order. With the output this says which bytes reach the kernel
and when the writing side is shut down. -/

namespace Realtinet

open TransitionSystem

namespace TcpConnection

variable {c c' d : TcpConnection} {caller : Thread} {message : List UInt8} {result : WriteResult} {i : Input}
  {inputs : List Input} {hand : List (Thread × List UInt8)} {send : Thread × List UInt8}

/-! ### The sends -/

theorem of_append (thread : Thread) (xs ys : List (Thread × List UInt8)) : of thread (xs ++ ys) = of thread xs ++ of thread ys :=
  List.filter_append xs ys

theorem of_eq_nil {thread : Thread} {xs : List (Thread × List UInt8)} (h : ∀ x ∈ xs, x.1 ≠ thread) : of thread xs = [] := by
  rw [of, List.filter_eq_nil_iff]
  intro x hx
  simpa using h x hx

/-- Every accepted send is somewhere, and those of one thread are in the order in which they were made; `hand` has been
taken from the queue, or is being sent in the loop. A shutdown that is on its way was asked for. -/
structure Ledger (hand : List (Thread × List UInt8)) (c : TcpConnection) : Prop where
  asked : ∀ f, f ∈ c.pendingFunctors ∨ f ∈ c.posts.map Prod.snd → f = .shutdownInLoop → Down c
  tags : ∀ post ∈ c.posts, post.1 ≠ .loop ∧ ∀ send, post.2.send? = some send → send.1 = post.1
  foreign : ∀ send ∈ c.queued, send.1 ≠ .loop
  order : ∀ thread, (of thread (c.sent ++ hand ++ c.queued ++ c.posted)).Sublist (of thread c.accepted)
  account : (c.sent ++ c.dropped ++ hand ++ c.queued ++ c.posted).Perm c.accepted

theorem Ledger.congr (h : Ledger hand c) (hdown : Down c → Down c') (hsent : c'.sent = c.sent)
    (hdropped : c'.dropped = c.dropped) (haccepted : c'.accepted = c.accepted) (hposts : c'.posts = c.posts)
    (hqueued : c'.queued = c.queued)
    (hfunctors : ∀ f ∈ c'.pendingFunctors, f = .shutdownInLoop → f ∈ c.pendingFunctors) : Ledger hand c' := by
  have hposted : c'.posted = c.posted := by rw [posted, posted, hposts]
  refine ⟨?_, ?_, ?_, ?_, ?_⟩
  · rintro f (hf | hf) hshutdown
    · exact hdown (h.asked f (.inl (hfunctors f hf hshutdown)) hshutdown)
    · rw [hposts] at hf
      exact hdown (h.asked f (.inr hf) hshutdown)
  · rw [hposts]
    exact h.tags
  · rw [hqueued]
    exact h.foreign
  · rw [hsent, hqueued, hposted, haccepted]
    exact h.order
  · rw [hsent, hdropped, hqueued, hposted, haccepted]
    exact h.account

theorem isCallback_spec {f : Functor} (h : f.isCallback = true) : f.send? = none ∧ f ≠ .shutdownInLoop := by
  cases f with
  | writeCompleteCallback => exact ⟨rfl, nofun⟩
  | highWaterMarkCallback size => exact ⟨rfl, nofun⟩
  | _ => exact absurd h Bool.false_ne_true

/-- Callbacks in the queue change nothing. -/
theorem Ledger.callbacks (h : Ledger hand c) (hdown : Down c → Down c') (hsent : c'.sent = c.sent)
    (hdropped : c'.dropped = c.dropped) (haccepted : c'.accepted = c.accepted) (hposts : c'.posts = c.posts)
    (hfunctors : ∃ extra, c'.pendingFunctors = c.pendingFunctors ++ extra ∧ ∀ f ∈ extra, f.isCallback = true) :
    Ledger hand c' := by
  obtain ⟨extra, heq, hextra⟩ := hfunctors
  refine h.congr hdown hsent hdropped haccepted hposts ?_ ?_
  · have hnil : extra.filterMap Functor.send? = [] :=
      List.filterMap_eq_nil_iff.mpr fun f hf => (isCallback_spec (hextra f hf)).1
    rw [queued, queued, heq, List.filterMap_append, hnil, List.append_nil]
  · intro f hf hshutdown
    rw [heq, List.mem_append] at hf
    rcases hf with hf | hf
    · exact hf
    · exact absurd hshutdown (isCallback_spec (hextra f hf)).2

/-- `sendInLoop` takes what is in hand. -/
theorem Ledger.take (h : Ledger [send] c) (htakes : Takes send c c') : Ledger [] c' := by
  have hlater : Ledger [send] { c' with sent := c.sent } :=
    h.callbacks (fun hdown => by rw [Down] at hdown ⊢; rw [← htakes.writes.state] at hdown; exact hdown) rfl
      htakes.dropped htakes.writes.accepted htakes.writes.posts htakes.writes.functors
  refine ⟨hlater.asked, hlater.tags, hlater.foreign, ?_, ?_⟩
  · intro thread
    rw [htakes.sent, List.append_nil]
    exact hlater.order thread
  · rw [htakes.sent, List.append_nil]
    refine List.Perm.trans ?_ hlater.account
    refine List.Perm.append_right _ (List.Perm.append_right _ ?_)
    rw [List.append_assoc, List.append_assoc]
    exact List.Perm.append_left _ List.perm_append_comm

/-- It gives up what is in hand. -/
theorem Ledger.giveUp (h : Ledger [send] c) : Ledger [] { c with dropped := c.dropped ++ [send] } := by
  refine ⟨h.asked, h.tags, h.foreign, ?_, ?_⟩
  · intro thread
    refine List.Sublist.trans ?_ (h.order thread)
    refine List.Sublist.filter _ (List.Sublist.append_right (List.Sublist.append_right ?_ _) _)
    rw [List.append_nil]
    exact List.sublist_append_left _ _
  · have haccount := h.account
    rw [← List.append_assoc, List.append_nil]
    exact haccount

/-- The oldest functor is a send. -/
theorem Ledger.pick {rest : List Functor} (h : Ledger [] c) (hfunctors : c.pendingFunctors = .sendInLoop caller message :: rest) :
    Ledger [(caller, message)] { c with pendingFunctors := rest } := by
  have hqueued : c.queued = (caller, message) :: rest.filterMap Functor.send? := by
    rw [queued, hfunctors]
    rfl
  refine ⟨?_, h.tags, ?_, ?_, ?_⟩
  · rintro f (hf | hf) hshutdown
    · exact h.asked f (.inl (by rw [hfunctors]; exact List.mem_cons_of_mem _ hf)) hshutdown
    · exact h.asked f (.inr hf) hshutdown
  · intro x hx
    exact h.foreign x (by rw [hqueued]; exact List.mem_cons_of_mem _ hx)
  · intro thread
    have horder := h.order thread
    rw [hqueued, List.append_nil] at horder
    simpa [queued, posted] using horder
  · have haccount := h.account
    rw [hqueued, List.append_nil] at haccount
    simpa [queued, posted] using haccount

/-- The oldest functor is none. -/
theorem Ledger.pop {functor : Functor} {rest : List Functor} (h : Ledger [] c)
    (hfunctors : c.pendingFunctors = functor :: rest) (hsend : functor.send? = none) :
    Ledger [] { c with pendingFunctors := rest } := by
  refine h.congr id rfl rfl rfl rfl ?_ ?_
  · rw [queued, queued, hfunctors, List.filterMap_cons_none hsend]
  · intro f hf _
    rw [hfunctors]
    exact List.mem_cons_of_mem _ hf

/-- A send in the loop's thread is in hand at once; none of them is ever queued. -/
theorem Ledger.accept (h : Ledger [] c) (message : List UInt8) :
    Ledger [(Thread.loop, message)] { c with accepted := c.accepted ++ [(Thread.loop, message)] } := by
  refine ⟨h.asked, h.tags, h.foreign, ?_, ?_⟩
  · intro thread
    have horder := h.order thread
    simp only [of_append, List.append_nil] at horder ⊢
    by_cases hthread : thread = .loop
    · subst hthread
      have hqueued : of .loop c.queued = [] := of_eq_nil h.foreign
      have hposted : of .loop c.posted = [] := by
        refine of_eq_nil ?_
        intro x hx
        obtain ⟨post, hpost, hsend⟩ := List.mem_filterMap.mp hx
        rw [(h.tags post hpost).2 x hsend]
        exact (h.tags post hpost).1
      have horder' : (of .loop c.sent).Sublist (of .loop c.accepted) := by
        simpa [hqueued, hposted] using horder
      change (of .loop c.sent ++ of .loop [(Thread.loop, message)] ++ of .loop c.queued ++ of .loop c.posted).Sublist _
      rw [hqueued, hposted, List.append_nil, List.append_nil]
      exact List.Sublist.append_right horder' _
    · have hnil : of thread [(Thread.loop, message)] = [] := of_eq_nil (by simpa using Ne.symm hthread)
      rw [hnil, List.append_nil, List.append_nil]
      exact horder
  · have haccount := h.account
    rw [List.append_nil] at haccount
    change (c.sent ++ c.dropped ++ [(Thread.loop, message)] ++ c.queued ++ c.posted).Perm _
    refine List.Perm.trans ?_ (List.Perm.append_right _ haccount)
    simp only [List.append_assoc]
    refine List.Perm.append_left _ (List.Perm.append_left _ ?_)
    rw [← List.append_assoc c.queued]
    exact List.perm_append_comm

/-- A thread other than the loop's is about to queue a functor. -/
theorem Ledger.post (functor : Functor) (h : Ledger [] c) (hcaller : caller ≠ .loop)
    (htag : ∀ send, functor.send? = some send → send.1 = caller) (hdown : Down c → Down c')
    (hshutdown : functor = .shutdownInLoop → Down c') (hposts : c'.posts = c.posts ++ [(caller, functor)])
    (hfunctors : c'.pendingFunctors = c.pendingFunctors) (hsent : c'.sent = c.sent)
    (hdropped : c'.dropped = c.dropped) (haccepted : c'.accepted = c.accepted ++ functor.send?.toList) :
    Ledger [] c' := by
  have hqueued : c'.queued = c.queued := by rw [queued, queued, hfunctors]
  have hposted : c'.posted = c.posted ++ functor.send?.toList := by
    rw [posted, posted, hposts, List.filterMap_append]
    cases hsend : functor.send? with
    | none => simp [hsend]
    | some send => simp [hsend]
  refine ⟨?_, ?_, ?_, ?_, ?_⟩
  · rintro f (hf | hf) heq
    · rw [hfunctors] at hf
      exact hdown (h.asked f (.inl hf) heq)
    · rw [hposts, List.map_append, List.mem_append] at hf
      rcases hf with hf | hf
      · exact hdown (h.asked f (.inr hf) heq)
      · rw [List.map_singleton, List.mem_singleton] at hf
        exact hshutdown (hf.symm.trans heq)
  · intro post hpost
    rw [hposts, List.mem_append, List.mem_singleton] at hpost
    rcases hpost with hpost | rfl
    · exact h.tags post hpost
    · exact ⟨hcaller, htag⟩
  · rw [hqueued]
    exact h.foreign
  · intro thread
    rw [hsent, hqueued, hposted, haccepted, ← List.append_assoc, of_append, of_append thread c.accepted]
    exact List.Sublist.append_right (h.order thread) _
  · rw [hsent, hdropped, hqueued, hposted, haccepted, ← List.append_assoc]
    exact List.Perm.append_right _ h.account

theorem posted_split {before after : List (Thread × Functor)} {post : Thread × Functor}
    (hposts : c.posts = before ++ post :: after) :
    c.posted = before.filterMap (fun p => p.2.send?) ++ post.2.send?.toList ++ after.filterMap (fun p => p.2.send?) := by
  rw [posted, hposts, List.filterMap_append]
  cases hsend : post.2.send? with
  | none => simp [hsend]
  | some send => simp [hsend]

/-- It queues it: the first of its own, so that its sends stay in order. -/
theorem Ledger.enqueue {before after : List (Thread × Functor)} {post : Thread × Functor} (h : Ledger [] c)
    (hposts : c.posts = before ++ post :: after) (hfirst : ∀ p ∈ before, p.1 ≠ post.1) :
    Ledger [] (queueInLoop post.2 { c with posts := before ++ after }) := by
  have hmem : post ∈ c.posts := by
    rw [hposts]
    exact List.mem_append_right _ List.mem_cons_self
  have hsub : ∀ p ∈ before ++ after, p ∈ c.posts := by
    intro p hp
    rw [hposts]
    rcases List.mem_append.mp hp with hp | hp
    · exact List.mem_append_left _ hp
    · exact List.mem_append_right _ (List.mem_cons_of_mem _ hp)
  have hposted := posted_split hposts
  have hposted' : (queueInLoop post.2 { c with posts := before ++ after }).posted =
      before.filterMap (fun p => p.2.send?) ++ after.filterMap (fun p => p.2.send?) := List.filterMap_append
  have hqueued : (queueInLoop post.2 { c with posts := before ++ after }).queued = c.queued ++ post.2.send?.toList := by
    rw [queued, queueInLoop, List.filterMap_append, queued]
    cases hsend : post.2.send? with
    | none => simp [hsend]
    | some send => simp [hsend]
  refine ⟨?_, ?_, ?_, ?_, ?_⟩
  · rintro f (hf | hf) heq
    · rcases List.mem_append.mp hf with hf | hf
      · exact h.asked f (.inl hf) heq
      · rw [List.mem_singleton] at hf
        exact h.asked f (.inr (List.mem_map.mpr ⟨post, hmem, hf.symm⟩)) heq
    · obtain ⟨p, hp, rfl⟩ := List.mem_map.mp hf
      exact h.asked p.2 (.inr (List.mem_map.mpr ⟨p, hsub p hp, rfl⟩)) heq
  · exact fun p hp => h.tags p (hsub p hp)
  · intro x hx
    rw [hqueued, List.mem_append, Option.mem_toList] at hx
    rcases hx with hx | hx
    · exact h.foreign x hx
    · rw [(h.tags post hmem).2 x hx]
      exact (h.tags post hmem).1
  · intro thread
    have horder := h.order thread
    rw [hposted] at horder
    rw [hqueued, hposted']
    change (of thread (c.sent ++ [] ++ (c.queued ++ post.2.send?.toList) ++ _)).Sublist (of thread c.accepted)
    simp only [of_append, List.append_nil] at horder ⊢
    cases hsend : post.2.send? with
    | none => simpa [hsend, of] using horder
    | some send =>
        by_cases hthread : send.1 = thread
        · -- nothing of the same thread comes before it
          have hnil : of thread (before.filterMap fun p => p.2.send?) = [] := by
            refine of_eq_nil ?_
            intro x hx heq
            obtain ⟨p, hp, hx⟩ := List.mem_filterMap.mp hx
            have hpmem : p ∈ c.posts := hsub p (List.mem_append_left _ hp)
            have hp1 := (h.tags p hpmem).2 x hx
            have hpost1 := (h.tags post hmem).2 send hsend
            exact hfirst p hp (by rw [← hp1, heq, ← hthread, hpost1])
          simp only [hnil, hsend, List.nil_append, List.append_assoc] at horder ⊢
          exact horder
        · have hnil : of thread [send] = [] := of_eq_nil (by simpa using hthread)
          simp only [hsend, Option.toList_some, hnil, List.append_nil] at horder ⊢
          exact horder
  · refine List.Perm.trans ?_ h.account
    rw [hqueued, hposted, hposted']
    simp only [List.append_assoc]
    refine List.Perm.append_left _ (List.Perm.append_left _ (List.Perm.append_left _ (List.Perm.append_left _ ?_)))
    rw [← List.append_assoc, ← List.append_assoc]
    exact List.Perm.append_right _ List.perm_append_comm

/-! ### What one input keeps -/

theorem output_change (h : Output c) (hasked : .shutdownInLoop ∈ c.pendingFunctors → Down c) (hchange : Change i c c') :
    Output c' := by
  cases hchange with
  | quiet hs => exact h.congr hs.state hs.writing hs.outputBuffer hs.written hs.writeShut hs.sent
  | establish hstate hs =>
      have hnot : ¬c.writeShut = true := by
        intro hshut
        rcases h.down hshut with hdown | hdown <;> rw [hstate] at hdown <;> cases hdown
      have houtput : Output { c with state := .kConnected } :=
        ⟨h.stream, fun _ => h.writing (by simp [hstate]), fun hshut => absurd hshut hnot, fun hshut => absurd hshut hnot⟩
      exact houtput.congr hs.state hs.writing hs.outputBuffer hs.written hs.writeShut hs.sent
  | close channel hstate hs => exact h.closed hs.state hs.outputBuffer hs.written hs.sent
  | write result stack heq =>
      have houtput : Output { c with stack := stack } := h.congr rfl rfl rfl rfl rfl rfl
      exact (flushes_handleWrite houtput heq).writes.output
  | runSend caller message result rest hfunctors heq =>
      have houtput : Output { c with pendingFunctors := rest } := h.congr rfl rfl rfl rfl rfl rfl
      rcases sendInLoop_cases houtput heq with ⟨hdrop, -⟩ | htakes
      · rw [hdrop]
        exact houtput.congr rfl rfl rfl rfl rfl rfl
      · exact htakes.writes.output
  | runShutdown rest hfunctors heq =>
      rw [heq]
      have hdown : Down c := hasked (by rw [hfunctors]; exact List.mem_cons_self)
      exact output_shutdownInLoop (h.congr rfl rfl rfl rfl rfl rfl) hdown
  | runClose channel rest hfunctors hs => exact h.closed hs.state hs.outputBuffer hs.written hs.sent
  | runOther functor rest hfunctors hsend hother hs =>
      exact h.congr hs.state hs.writing hs.outputBuffer hs.written hs.writeShut hs.sent
  | enqueue before post after hposts hfirst heq =>
      rw [heq]
      exact h.congr rfl rfl rfl rfl rfl rfl
  | askClose hstate hs =>
      exact (h.disconnecting hstate).congr hs.state hs.writing hs.outputBuffer hs.written hs.writeShut hs.sent
  | disconnecting hstate hs =>
      exact (h.disconnecting hstate).congr hs.state hs.writing hs.outputBuffer hs.written hs.writeShut hs.sent
  | sendHere message result hi hstate heq =>
      have houtput : Output { c with accepted := c.accepted ++ [(Thread.loop, message)] } := h.congr rfl rfl rfl rfl rfl rfl
      rcases sendInLoop_cases houtput heq with ⟨hdrop, -⟩ | htakes
      · rw [hdrop]
        exact houtput.congr rfl rfl rfl rfl rfl rfl
      · exact htakes.writes.output
  | shutdownHere hstate heq =>
      rw [heq]
      exact output_shutdownInLoop (h.disconnecting (.inl hstate)) (.inl rfl)
  | postSend caller message result hi hcaller hstate heq =>
      rw [heq]
      exact h.congr rfl rfl rfl rfl rfl rfl
  | postShutdown caller hcaller hstate heq =>
      rw [heq]
      exact (h.disconnecting (.inl hstate)).congr rfl rfl rfl rfl rfl rfl
  | postClose caller hcaller hstate heq =>
      rw [heq]
      exact (h.disconnecting hstate).congr rfl rfl rfl rfl rfl rfl
  | postOther caller functor hcaller hsend hother heq =>
      rw [heq]
      exact h.congr rfl rfl rfl rfl rfl rfl

theorem Down.of_state (h : Down c) (hstate : c'.state = c.state) : Down c' := by
  rw [Down, hstate]
  exact h

theorem not_down_of_connected (hstate : c.state = .kConnected) : ¬Down c := by
  rintro (hdown | hdown) <;> rw [hstate] at hdown <;> cases hdown

theorem Ledger.same (h : Ledger hand c) (hs : Same c c') : Ledger hand c' :=
  h.congr (fun hdown => hdown.of_state hs.state) hs.sent hs.dropped hs.accepted hs.posts
    (by rw [queued, queued, hs.pendingFunctors]) (fun f hf _ => hs.pendingFunctors ▸ hf)

theorem Ledger.flush (h : Ledger hand c) (hflushes : Flushes c c') : Ledger hand c' :=
  h.callbacks (fun hdown => hdown.of_state hflushes.writes.state) hflushes.sent hflushes.dropped hflushes.writes.accepted
    hflushes.writes.posts hflushes.writes.functors

/-- Only the state and the channel change. -/
theorem Ledger.restate (state : StateE) (channel : Channel) (h : Ledger hand c)
    (hdown : Down c → state = .kDisconnecting ∨ state = .kDisconnected) :
    Ledger hand { c with state := state, channel := channel } :=
  h.congr hdown rfl rfl rfl rfl rfl fun _ hf _ => hf

theorem ledger_sendInLoop (h : Ledger [(caller, message)] c) (houtput : Output c)
    (hsend : c.sendInLoop caller message result = .ok c') : Ledger [] c' := by
  rcases sendInLoop_cases houtput hsend with ⟨hdrop, -⟩ | htakes
  · rw [hdrop]
    exact h.giveUp
  · exact h.take htakes

theorem ledger_change (houtput : Output c) (h : Ledger [] c) (hchange : Change i c c') : Ledger [] c' := by
  cases hchange with
  | quiet hs => exact h.same hs
  | establish hstate hs =>
      refine (h.restate .kConnected c.channel ?_).same hs
      rintro (hdown | hdown) <;> rw [hstate] at hdown <;> cases hdown
  | close channel hstate hs => exact (h.restate .kDisconnected channel fun _ => .inr rfl).same hs
  | write result stack heq =>
      have houtput' : Output { c with stack := stack } := houtput.congr rfl rfl rfl rfl rfl rfl
      have h' : Ledger [] { c with stack := stack } := h.same (Same.aside ..)
      exact h'.flush (flushes_handleWrite houtput' heq)
  | runSend caller message result rest hfunctors heq =>
      have houtput' : Output { c with pendingFunctors := rest } := houtput.congr rfl rfl rfl rfl rfl rfl
      exact ledger_sendInLoop (h.pick hfunctors) houtput' heq
  | runShutdown rest hfunctors heq =>
      have houtput' : Output { c with pendingFunctors := rest } := houtput.congr rfl rfl rfl rfl rfl rfl
      have hdown : Down c := h.asked _ (.inl (by rw [hfunctors]; exact List.mem_cons_self)) rfl
      rw [heq]
      exact (h.pop hfunctors rfl).flush (flushes_shutdownInLoop houtput' hdown)
  | runClose channel rest hfunctors hs =>
      exact ((h.pop hfunctors rfl).restate .kDisconnected channel fun _ => .inr rfl).same hs
  | runOther functor rest hfunctors hsend hother hs => exact (h.pop hfunctors hsend).same hs
  | enqueue before post after hposts hfirst heq =>
      rw [heq]
      exact h.enqueue hposts hfirst
  | askClose hstate hs =>
      refine Ledger.same ?_ hs
      refine h.congr (fun _ => .inl rfl) rfl rfl rfl rfl ?_ ?_
      · rw [queued, queued, List.filterMap_append]
        exact List.append_nil _
      · intro f hf hshutdown
        rcases List.mem_append.mp hf with hf | hf
        · exact hf
        · rw [List.mem_singleton.mp hf] at hshutdown
          cases hshutdown
  | disconnecting hstate hs => exact (h.restate .kDisconnecting c.channel fun _ => .inl rfl).same hs
  | sendHere message result hi hstate heq =>
      have houtput' : Output { c with accepted := c.accepted ++ [(Thread.loop, message)] } :=
        houtput.congr rfl rfl rfl rfl rfl rfl
      exact ledger_sendInLoop (h.accept message) houtput' heq
  | shutdownHere hstate heq =>
      have houtput' : Output { c with state := .kDisconnecting } := houtput.disconnecting (.inl hstate)
      rw [heq]
      exact (h.restate .kDisconnecting c.channel fun _ => .inl rfl).flush (flushes_shutdownInLoop houtput' (.inl rfl))
  | postSend caller message result hi hcaller hstate heq =>
      rw [heq]
      refine h.post (.sendInLoop caller message) hcaller ?_ id nofun rfl rfl rfl rfl rfl
      intro send hsend
      cases hsend
      rfl
  | postShutdown caller hcaller hstate heq =>
      rw [heq]
      exact h.post .shutdownInLoop hcaller nofun (fun _ => .inl rfl) (fun _ => .inl rfl) rfl rfl rfl rfl
        (List.append_nil _).symm
  | postClose caller hcaller hstate heq =>
      rw [heq]
      exact h.post .forceCloseInLoop hcaller nofun (fun _ => .inl rfl) nofun rfl rfl rfl rfl (List.append_nil _).symm
  | postOther caller functor hcaller hsend hother heq =>
      rw [heq]
      refine h.post functor hcaller ?_ id (fun hshutdown => absurd hshutdown hother) rfl rfl rfl rfl ?_
      · intro send hsome
        rw [hsend] at hsome
        cases hsome
      · rw [hsend]
        exact (List.append_nil _).symm

theorem accepted_sendInLoop (houtput : Output c) (h : c.sendInLoop caller message result = .ok c') :
    c'.accepted = c.accepted := by
  rcases sendInLoop_cases houtput h with ⟨hdrop, -⟩ | htakes
  · rw [hdrop]
  · exact htakes.writes.accepted

/-- Only a call of `send` adds to what is accepted. -/
theorem accepted_step (houtput : Output c) (hstep : step c i = .ok c') :
    c'.accepted = c.accepted ∨
      ∃ caller message result, i = .call caller (.send message) result ∧
        c'.accepted = c.accepted ++ [(caller, message)] := by
  cases step_change hstep with
  | quiet hs => exact .inl hs.accepted
  | establish hstate hs => exact .inl hs.accepted
  | close channel hstate hs => exact .inl hs.accepted
  | write result stack heq =>
      have houtput' : Output { c with stack := stack } := houtput.congr rfl rfl rfl rfl rfl rfl
      exact .inl (flushes_handleWrite houtput' heq).writes.accepted
  | runSend caller message result rest hfunctors heq =>
      have houtput' : Output { c with pendingFunctors := rest } := houtput.congr rfl rfl rfl rfl rfl rfl
      have hsame := accepted_sendInLoop houtput' heq
      exact .inl hsame
  | runShutdown rest hfunctors heq =>
      obtain ⟨writeShut, hshut, -⟩ := shutdownInLoop_eq { c with pendingFunctors := rest }
      rw [heq, hshut]
      exact .inl rfl
  | runClose channel rest hfunctors hs => exact .inl hs.accepted
  | runOther functor rest hfunctors hsend hother hs => exact .inl hs.accepted
  | enqueue before post after hposts hfirst heq => exact .inl (heq ▸ rfl)
  | askClose hstate hs => exact .inl hs.accepted
  | disconnecting hstate hs => exact .inl hs.accepted
  | sendHere message result hi hstate heq =>
      have houtput' : Output { c with accepted := c.accepted ++ [(Thread.loop, message)] } :=
        houtput.congr rfl rfl rfl rfl rfl rfl
      exact .inr ⟨.loop, message, result, hi, accepted_sendInLoop houtput' heq⟩
  | shutdownHere hstate heq =>
      obtain ⟨writeShut, hshut, -⟩ := shutdownInLoop_eq { c with state := .kDisconnecting }
      rw [heq, hshut]
      exact .inl rfl
  | postSend caller message result hi hcaller hstate heq => exact .inr ⟨caller, message, result, hi, heq ▸ rfl⟩
  | postShutdown caller hcaller hstate heq => exact .inl (heq ▸ rfl)
  | postClose caller hcaller hstate heq => exact .inl (heq ▸ rfl)
  | postOther caller functor hcaller hsend hother heq => exact .inl (heq ▸ rfl)

/-! ### Whole runs -/

/-- The connections some run leads to. -/
def Run (writeCompleteCallback highWaterMarkCallback : Bool) (highWaterMark : Nat) (inputs : List Input)
    (c : TcpConnection) : Prop :=
  run step (new writeCompleteCallback highWaterMarkCallback highWaterMark) inputs = .ok c

variable {writeCompleteCallback highWaterMarkCallback : Bool} {highWaterMark : Nat}

structure Sound (c : TcpConnection) : Prop where
  output : Output c
  ledger : Ledger [] c

theorem sound_new : Sound (new writeCompleteCallback highWaterMarkCallback highWaterMark) := by
  have hcontent : (new writeCompleteCallback highWaterMarkCallback highWaterMark).outputBuffer.content = [] :=
    Buffer.content_new
  refine ⟨⟨?_, ?_, nofun, nofun⟩, ⟨?_, nofun, nofun, ?_, ?_⟩⟩
  · rw [hcontent]
    rfl
  · intro _
    refine iff_of_false ?_ (fun hne => hne hcontent)
    exact Bool.false_ne_true
  · rintro f (hf | hf)
    · cases hf
    · cases hf
  · intro thread
    exact List.Sublist.refl _
  · exact List.Perm.refl _

theorem sound_step (h : Sound c) (hstep : step c i = .ok c') : Sound c' := by
  have hchange := step_change hstep
  have hasked : .shutdownInLoop ∈ c.pendingFunctors → Down c := fun hmem => h.ledger.asked _ (.inl hmem) rfl
  exact ⟨output_change h.output hasked hchange, ledger_change h.output h.ledger hchange⟩

theorem sound_run (hrun : Run writeCompleteCallback highWaterMarkCallback highWaterMark inputs c) : Sound c :=
  run_invariant (fun _ _ _ => sound_step) sound_new hrun

/-- **The kernel gets the sends, whole and in order.** In every run, however little of a message each `write` takes: what
the kernel has accepted and what the output buffer holds are together the messages that `sendInLoop` has taken over, one
after the other; the sends of one thread stay in their order; every send that found the connection up is about to be
queued, in the queue, taken over or given up, exactly once; and until the connection is down the loop waits for `POLLOUT`
exactly when there is something to write. -/
theorem writes_in_order (hrun : Run writeCompleteCallback highWaterMarkCallback highWaterMark inputs c) :
    c.written ++ c.outputBuffer.content = bytes c.sent ∧
    (∀ thread, (of thread c.sent).Sublist (of thread c.accepted)) ∧
    (c.sent ++ c.dropped ++ c.queued ++ c.posted).Perm c.accepted ∧
    (c.state ≠ .kDisconnected → (c.channel.isWriting = true ↔ c.outputBuffer.content ≠ [])) := by
  have hsound := sound_run hrun
  refine ⟨hsound.output.stream, ?_, ?_, hsound.output.writing⟩
  · intro thread
    have horder := hsound.ledger.order thread
    rw [List.append_nil, List.append_assoc, of_append] at horder
    exact (List.sublist_append_left _ _).trans horder
  · have haccount := hsound.ledger.account
    rwa [List.append_nil] at haccount

/-- The run is accepted and ends in a connection that passes the test. -/
def ends (c : TcpConnection) (inputs : List Input) (test : TcpConnection → Bool) : Bool :=
  match run step c inputs with
  | .ok d => test d
  | .error _ => false

theorem exists_run {test : TcpConnection → Bool} (h : ends c inputs test = true) :
    ∃ d, run step c inputs = .ok d ∧ test d = true := by
  rw [ends] at h
  split at h
  · rename_i d hrun
    exact ⟨d, hrun, h⟩
  · cases h

/-- A long message is cut by two writes, with a second one of another thread behind it. -/
def partialInputs : List Input :=
  [.connectEstablished, .userReturns, .call .loop (.send [1, 2, 3]) (.wrote 1), .call (.other 7) (.send [4]) .tryAgain,
    .enqueue (.other 7), .poll { pollOut := true }, .handleEvent, .write (.wrote 1), .proceed, .eventsHandled,
    .functor .tryAgain]

theorem writes_in_order_partialInputs :
    ∃ c, Run true true 100 partialInputs c ∧ c.written ++ c.outputBuffer.content = [1, 2, 3, 4] := by
  have hends : ends (new true true 100) partialInputs (fun c => bytes c.sent = [1, 2, 3, 4]) = true := by decide +kernel
  obtain ⟨c, hrun, hbytes⟩ := exists_run hends
  have hbytes := of_decide_eq_true hbytes
  exact ⟨c, hrun, (writes_in_order hrun).1.trans hbytes⟩

/-- The input is no send, or one in the loop's thread whose `write` does not find the connection broken. -/
def Input.own : Input → Bool
  | .call (.other _) (.send _) _ => false
  | .call .loop (.send _) .broken => false
  | _ => true

/-- As long as all sends are made in the loop's thread, none is queued. -/
structure Own (c : TcpConnection) : Prop where
  sound : Sound c
  accepted : c.accepted = c.sent

theorem Own.queued_eq_nil (h : Own c) : c.queued = [] := by
  have hlength := h.sound.ledger.account.length_eq
  simp only [h.accepted, List.length_append, List.length_nil] at hlength
  exact List.length_eq_zero_iff.mp (by omega)

theorem own_step (h : Own c) (hown : i.own = true) (hstep : step c i = .ok c') : Own c' := by
  refine ⟨sound_step h.sound hstep, ?_⟩
  have houtput := h.sound.output
  cases step_change hstep with
  | quiet hs => rw [hs.accepted, hs.sent, h.accepted]
  | establish hstate hs => rw [hs.accepted, hs.sent, h.accepted]
  | close channel hstate hs => rw [hs.accepted, hs.sent, h.accepted]
  | write result stack heq =>
      have hflushes := flushes_handleWrite (c := { c with stack := stack }) (houtput.congr rfl rfl rfl rfl rfl rfl) heq
      rw [hflushes.sent, hflushes.writes.accepted, h.accepted]
  | runSend caller message result rest hfunctors heq =>
      have hqueued := h.queued_eq_nil
      rw [queued, hfunctors] at hqueued
      cases hqueued
  | runShutdown rest hfunctors heq =>
      obtain ⟨writeShut, hshut, -⟩ := shutdownInLoop_eq { c with pendingFunctors := rest }
      rw [heq, hshut, h.accepted]
  | runClose channel rest hfunctors hs => rw [hs.accepted, hs.sent, h.accepted]
  | runOther functor rest hfunctors hsend hother hs => rw [hs.accepted, hs.sent, h.accepted]
  | enqueue before post after hposts hfirst heq =>
      rw [heq]
      exact h.accepted
  | askClose hstate hs => rw [hs.accepted, hs.sent, h.accepted]
  | disconnecting hstate hs => rw [hs.accepted, hs.sent, h.accepted]
  | sendHere message result hi hstate heq =>
      have houtput' : Output { c with accepted := c.accepted ++ [(Thread.loop, message)] } :=
        houtput.congr rfl rfl rfl rfl rfl rfl
      rcases sendInLoop_cases houtput' heq with ⟨-, hdown | hshut | rfl⟩ | htakes
      · exact absurd (.inr hdown) (not_down_of_connected hstate)
      · exact absurd (houtput.down hshut) (not_down_of_connected hstate)
      · rw [hi] at hown
        cases hown
      · rw [htakes.sent, htakes.writes.accepted, h.accepted]
  | shutdownHere hstate heq =>
      obtain ⟨writeShut, hshut, -⟩ := shutdownInLoop_eq { c with state := .kDisconnecting }
      rw [heq, hshut, h.accepted]
  | postSend caller message result hi hcaller hstate heq =>
      rw [hi] at hown
      cases caller with
      | loop => exact absurd rfl hcaller
      | other id => cases hown
  | postShutdown caller hcaller hstate heq =>
      rw [heq]
      exact h.accepted
  | postClose caller hcaller hstate heq =>
      rw [heq]
      exact h.accepted
  | postOther caller functor hcaller hsend hother heq =>
      rw [heq]
      exact h.accepted

/-- **The end of the stream comes after everything sent.** If all sends are made in the loop's thread and none of them
finds the connection broken, then whenever the writing side is shut down on a connection that is not yet closed, the
kernel has accepted everything that was ever sent, though `shutdown` may have been called long before. -/
theorem shutdown_after_sends (hrun : Run writeCompleteCallback highWaterMarkCallback highWaterMark inputs c)
    (hown : ∀ i ∈ inputs, i.own = true) (hshut : c.writeShut = true) (hopen : c.state ≠ .kDisconnected) :
    c.written = bytes c.accepted := by
  have hstep : ∀ c i c', Own c → i.own = true → step c i = .ok c' → Own c' := fun _ _ _ => own_step
  have h : Own c := run_invariant_along hstep ⟨sound_new, rfl⟩ (along_of_mem hown _) hrun
  have hstream := h.sound.output.stream
  rwa [h.sound.output.shut hshut hopen, List.append_nil, ← h.accepted] at hstream

/-- `shutdown` is called while two bytes are in the buffer; the second write takes them. -/
def lateShutdownInputs : List Input :=
  [.connectEstablished, .userReturns, .call .loop (.send [1, 2, 3]) (.wrote 1), .call .loop .shutdown .tryAgain,
    .poll { pollOut := true }, .handleEvent, .write (.wrote 2)]

theorem shutdown_after_sends_late :
    ∃ c, Run true true 100 lateShutdownInputs c ∧ c.writeShut = true ∧ c.written = [1, 2, 3] := by
  have hends : ends (new true true 100) lateShutdownInputs
      (fun c => c.writeShut = true ∧ c.state ≠ .kDisconnected ∧ bytes c.accepted = [1, 2, 3]) = true := by decide +kernel
  obtain ⟨c, hrun, htest⟩ := exists_run hends
  obtain ⟨hshut, hopen, hbytes⟩ := of_decide_eq_true htest
  exact ⟨c, hrun, hshut, (shutdown_after_sends hrun (by decide) hshut hopen).trans hbytes⟩

/-! ### The shutdown is carried out -/

/-- A shutdown that was asked for has been carried out, is on its way, or waits for the buffer to become empty. -/
def Pending (c : TcpConnection) : Prop :=
  c.state = .kDisconnected ∨
    c.state = .kDisconnecting ∧
      (c.writeShut = true ∨ .shutdownInLoop ∈ c.pendingFunctors ∨ .shutdownInLoop ∈ c.posts.map Prod.snd ∨
        c.channel.isWriting = true)

theorem Pending.congr (h : Pending c) (hstate : c'.state = c.state) (hshut : c.writeShut = true → c'.writeShut = true)
    (hfunctors : .shutdownInLoop ∈ c.pendingFunctors → .shutdownInLoop ∈ c'.pendingFunctors)
    (hposts : .shutdownInLoop ∈ c.posts.map Prod.snd → .shutdownInLoop ∈ c'.posts.map Prod.snd)
    (hwriting : c.state = .kDisconnecting → c.channel.isWriting = true →
      c'.channel.isWriting = true ∨ c'.writeShut = true) : Pending c' := by
  rcases h with h | ⟨h, hshut' | hfunctor | hpost | hwriting'⟩
  · exact .inl (hstate.trans h)
  · exact .inr ⟨hstate.trans h, .inl (hshut hshut')⟩
  · exact .inr ⟨hstate.trans h, .inr (.inl (hfunctors hfunctor))⟩
  · exact .inr ⟨hstate.trans h, .inr (.inr (.inl (hposts hpost)))⟩
  · rcases hwriting h hwriting' with hwriting | hshut
    · exact .inr ⟨hstate.trans h, .inr (.inr (.inr hwriting))⟩
    · exact .inr ⟨hstate.trans h, .inl hshut⟩

theorem Pending.same (h : Pending c) (hs : Same c c') : Pending c' :=
  h.congr hs.state (fun hshut => hs.writeShut.trans hshut) (fun hmem => by rw [hs.pendingFunctors]; exact hmem)
    (fun hmem => by rw [hs.posts]; exact hmem) (fun _ hwriting => .inl (hs.writing.trans hwriting))

theorem Pending.flush (h : Pending c) (hflushes : Flushes c c') : Pending c' := by
  obtain ⟨extra, hfunctors, -⟩ := hflushes.writes.functors
  refine h.congr hflushes.writes.state hflushes.writes.shut ?_ ?_ hflushes.shuts
  · intro hmem
    rw [hfunctors]
    exact List.mem_append_left _ hmem
  · rw [hflushes.writes.posts]
    exact id

/-- A functor other than the shutdown leaves the queue. -/
theorem Pending.pop {functor : Functor} {rest : List Functor} (h : Pending c)
    (hfunctors : c.pendingFunctors = functor :: rest) (hother : functor ≠ .shutdownInLoop) :
    Pending { c with pendingFunctors := rest } := by
  refine h.congr rfl id ?_ id (fun _ hwriting => .inl hwriting)
  intro hmem
  rw [hfunctors, List.mem_cons] at hmem
  rcases hmem with heq | hmem
  · exact absurd heq.symm hother
  · exact hmem

theorem Pending.not_connected (h : Pending c) : c.state ≠ .kConnected := by
  rcases h with h | ⟨h, -⟩
  · simp [h]
  · simp [h]

theorem pending_sendInLoop (h : Pending c) (houtput : Output c) (hsend : c.sendInLoop caller message result = .ok c') :
    Pending c' := by
  rcases sendInLoop_cases houtput hsend with ⟨hdrop, -⟩ | htakes
  · rw [hdrop]
    exact h.congr rfl id id id (fun _ hwriting => .inl hwriting)
  · obtain ⟨extra, hfunctors, -⟩ := htakes.writes.functors
    refine h.congr htakes.writes.state htakes.writes.shut ?_ ?_ (fun _ hwriting => .inl (htakes.writing hwriting))
    · intro hmem
      rw [hfunctors]
      exact List.mem_append_left _ hmem
    · rw [htakes.writes.posts]
      exact id

theorem pending_step (hsound : Sound c) (h : Pending c) (hstep : step c i = .ok c') : Pending c' := by
  have houtput := hsound.output
  cases step_change hstep with
  | quiet hs => exact h.same hs
  | establish hstate hs => rcases h with h | ⟨h, -⟩ <;> rw [hstate] at h <;> cases h
  | close channel hstate hs => exact .inl hs.state
  | write result stack heq =>
      have hflushes := flushes_handleWrite (c := { c with stack := stack }) (houtput.congr rfl rfl rfl rfl rfl rfl) heq
      have h' : Pending { c with stack := stack } := h.same (Same.aside ..)
      exact h'.flush hflushes
  | runSend caller message result rest hfunctors heq =>
      exact pending_sendInLoop (h.pop hfunctors nofun) (houtput.congr rfl rfl rfl rfl rfl rfl) heq
  | runShutdown rest hfunctors heq =>
      obtain ⟨writeShut, hshut, hmono, hdone⟩ := shutdownInLoop_eq { c with pendingFunctors := rest }
      rw [heq, hshut]
      rcases h with h | ⟨h, -⟩
      · exact .inl h
      · rcases hdone with hwriting | hshut
        · exact .inr ⟨h, .inr (.inr (.inr hwriting))⟩
        · exact .inr ⟨h, .inl hshut⟩
  | runClose channel rest hfunctors hs => exact .inl hs.state
  | runOther functor rest hfunctors hsend hother hs => exact (h.pop hfunctors hother).same hs
  | enqueue before post after hposts hfirst heq =>
      rw [heq]
      rcases h with h | ⟨h, hshut | hfunctor | hpost | hwriting⟩
      · exact .inl h
      · exact .inr ⟨h, .inl hshut⟩
      · exact .inr ⟨h, .inr (.inl (List.mem_append_left _ hfunctor))⟩
      · rw [hposts, List.map_append, List.map_cons, List.mem_append, List.mem_cons] at hpost
        rcases hpost with hpost | heq | hpost
        · refine .inr ⟨h, .inr (.inr (.inl ?_))⟩
          exact List.mem_map.mpr ((List.mem_map.mp hpost).imp fun p hp => ⟨List.mem_append_left _ hp.1, hp.2⟩)
        · exact .inr ⟨h, .inr (.inl (List.mem_append_right _ (List.mem_singleton.mpr heq)))⟩
        · refine .inr ⟨h, .inr (.inr (.inl ?_))⟩
          exact List.mem_map.mpr ((List.mem_map.mp hpost).imp fun p hp => ⟨List.mem_append_right _ hp.1, hp.2⟩)
      · exact .inr ⟨h, .inr (.inr (.inr hwriting))⟩
  | askClose hstate hs =>
      have hdown : StateE.kDisconnecting = c.state := (hstate.resolve_left h.not_connected).symm
      have hasked : Pending { c with
          state := .kDisconnecting, pendingFunctors := c.pendingFunctors ++ [.forceCloseInLoop] } :=
        h.congr hdown id (fun hmem => List.mem_append_left _ hmem) id fun _ hwriting => .inl hwriting
      exact hasked.same hs
  | disconnecting hstate hs =>
      have hdown : StateE.kDisconnecting = c.state := (hstate.resolve_left h.not_connected).symm
      have hasked : Pending { c with state := .kDisconnecting } :=
        h.congr hdown id id id fun _ hwriting => .inl hwriting
      exact hasked.same hs
  | sendHere message result hi hstate heq => exact absurd hstate h.not_connected
  | shutdownHere hstate heq => exact absurd hstate h.not_connected
  | postSend caller message result hi hcaller hstate heq => exact absurd hstate h.not_connected
  | postShutdown caller hcaller hstate heq => exact absurd hstate h.not_connected
  | postClose caller hcaller hstate heq =>
      have hdown : StateE.kDisconnecting = c.state := (hstate.resolve_left h.not_connected).symm
      rw [heq]
      refine h.congr hdown id id ?_ fun _ hwriting => .inl hwriting
      intro hmem
      rw [List.map_append]
      exact List.mem_append_left _ hmem
  | postOther caller functor hcaller hsend hother heq =>
      rw [heq]
      refine h.congr rfl id id ?_ fun _ hwriting => .inl hwriting
      intro hmem
      rw [List.map_append]
      exact List.mem_append_left _ hmem

/-- `shutdown` on a connection that is up. -/
theorem pending_shutdown (hstate : c.state = .kConnected) (hstep : step c (.call caller .shutdown result) = .ok c') :
    Pending c' := by
  simp only [step] at hstep
  split_ifs at hstep
  simp only [runApi, shutdown, runInLoop, hstate, if_true] at hstep
  split_ifs at hstep with hcaller
  · cases hstep
    obtain ⟨writeShut, hshut, hmono, hdone⟩ := shutdownInLoop_eq { c with state := .kDisconnecting }
    rw [hshut]
    rcases hdone with hwriting | hshut
    · exact .inr ⟨rfl, .inr (.inr (.inr hwriting))⟩
    · exact .inr ⟨rfl, .inl hshut⟩
  · cases hstep
    exact .inr ⟨rfl, .inr (.inr (.inl (by simp)))⟩

/-- **A shutdown is not forgotten.** After `shutdown` has been called, in whichever thread, and until the connection is
closed: the writing side has been shut down, or the call is about to be queued or in the queue, or there are bytes to be
written and `POLLOUT` is waited for, after the last of which `handleWrite` shuts down. -/
theorem shutdown_not_forgotten {later : List Input}
    (hrun : Run writeCompleteCallback highWaterMarkCallback highWaterMark inputs c) (hstate : c.state = .kConnected)
    (hshutdown : step c (.call caller .shutdown result) = .ok c') (hlater : run step c' later = .ok d)
    (hopen : d.state ≠ .kDisconnected) :
    d.writeShut = true ∨ .shutdownInLoop ∈ d.pendingFunctors ∨ .shutdownInLoop ∈ d.posts.map Prod.snd ∨
      d.channel.isWriting = true ∧ d.outputBuffer.content ≠ [] := by
  have hstep : ∀ c i c', Sound c ∧ Pending c → step c i = .ok c' → Sound c' ∧ Pending c' :=
    fun c i c' h hstep => ⟨sound_step h.1 hstep, pending_step h.1 h.2 hstep⟩
  have hsound := sound_step (sound_run hrun) hshutdown
  obtain ⟨hsound, hpending⟩ := run_invariant hstep ⟨hsound, pending_shutdown hstate hshutdown⟩ hlater
  rcases hpending with hclosed | ⟨-, hshut | hfunctor | hpost | hwriting⟩
  · exact absurd hclosed hopen
  · exact .inl hshut
  · exact .inr (.inl hfunctor)
  · exact .inr (.inr (.inl hpost))
  · exact .inr (.inr (.inr ⟨hwriting, (hsound.output.writing hopen).mp hwriting⟩))

/-- A thread calls `shutdown`, and while two bytes are left its functor runs. -/
theorem shutdown_not_forgotten_waiting :
    ∃ c d, Run true true 100 [.connectEstablished, .userReturns, .call .loop (.send [1, 2, 3]) (.wrote 1)] c ∧
      run step c [.call (.other 7) .shutdown .tryAgain, .enqueue (.other 7), .functor .tryAgain] = .ok d ∧
      d.outputBuffer.content ≠ [] := by
  have hends : ends (new true true 100) [.connectEstablished, .userReturns, .call .loop (.send [1, 2, 3]) (.wrote 1)]
      (fun c => decide (c.state = .kConnected) && ends c [.call (.other 7) .shutdown .tryAgain] (fun c' =>
        ends c' [.enqueue (.other 7), .functor .tryAgain] (fun d => d.state ≠ .kDisconnected ∧ d.writeShut = false ∧
          Functor.shutdownInLoop ∉ d.pendingFunctors ∧ Functor.shutdownInLoop ∉ d.posts.map Prod.snd))) = true := by
    decide +kernel
  obtain ⟨c, hrun, htest⟩ := exists_run hends
  simp only [Bool.and_eq_true, decide_eq_true_eq] at htest
  obtain ⟨hstate, htest⟩ := htest
  obtain ⟨c', hcall, htest⟩ := exists_run htest
  obtain ⟨d, hlater, htest⟩ := exists_run htest
  obtain ⟨hopen, hshut, hfunctor, hpost⟩ := of_decide_eq_true htest
  rw [run_singleton] at hcall
  refine ⟨c, d, hrun, (run_cons hcall).trans hlater, ?_⟩
  rcases shutdown_not_forgotten hrun hstate hcall hlater hopen with h | h | h | h
  · rw [hshut] at h
    cases h
  · exact absurd h hfunctor
  · exact absurd h hpost
  · exact h.2

/-! ### After the shutdown -/

/-- The writing side is shut down, with these bytes and these sends. -/
structure Ended (written : List UInt8) (sent : List (Thread × List UInt8)) (c : TcpConnection) : Prop where
  shut : c.writeShut = true
  written : c.written = written
  sent : c.sent = sent

variable {written : List UInt8} {sent : List (Thread × List UInt8)}

theorem Ended.same (h : Ended written sent c) (hs : Same c c') : Ended written sent c' :=
  ⟨hs.writeShut.trans h.shut, hs.written.trans h.written, hs.sent.trans h.sent⟩

theorem Ended.shutdownInLoop (h : Ended written sent c) : Ended written sent c.shutdownInLoop := by
  obtain ⟨writeShut, heq, hmono, -⟩ := shutdownInLoop_eq c
  rw [heq]
  exact ⟨hmono h.shut, h.written, h.sent⟩

theorem Ended.handleWrite (h : Ended written sent c) (hwrite : c.handleWrite result = .ok c') :
    Ended written sent c' := by
  have heq : c.handleWrite result = .ok c := by simp [TcpConnection.handleWrite, kernelWrite, h.shut]
  cases heq.symm.trans hwrite
  exact h

/-- The message is given up: there is nothing in the buffer, and `write` fails. -/
theorem Ended.sendInLoop (h : Ended written sent c) (houtput : Output c)
    (hsend : c.sendInLoop caller message result = .ok c') : Ended written sent c' := by
  have heq : c.sendInLoop caller message result = .ok { c with dropped := c.dropped ++ [(caller, message)] } := by
    by_cases hstate : c.state = .kDisconnected
    · rw [TcpConnection.sendInLoop, if_pos hstate]
    · have hempty := houtput.shut h.shut hstate
      have hnw : c.channel.isWriting = false := by
        rw [← Bool.not_eq_true, houtput.writing hstate]
        exact fun hne => hne hempty
      have hzero := (content_eq_nil_iff _).mpr hempty
      simp [TcpConnection.sendInLoop, hstate, hnw, hzero, kernelWrite, h.shut]
  cases heq.symm.trans hsend
  exact ⟨h.shut, h.written, h.sent⟩

end TcpConnection
end Realtinet
