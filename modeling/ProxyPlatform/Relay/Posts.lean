import ProxyPlatform.Relay.Step

/-!
# What the relay writes

The relay writes to its sockets what the proxy posts, and nothing else: the ticks, the lookups and
the calls of the sockets leave what was written as it is.

* `written`: what was written to the socket of a connection, in order;
* `posts_step`: the calls of the relay that are no posts;
* `written_postData`: a post to a connection that is connected.
-/

namespace ProxyPlatform

namespace RelayLocalBindingService

variable {R : RelayPlatform} {alive : ℕ → Bool} {s : RelayLocalBindingService}

/-- What was written to the socket of the connection `k`. -/
def written (k : ℕ) (posts : List RelayPost) : Bytes :=
  posts.flatMap fun x => match x with
    | .sent j data => if j = k then data else []
    | _ => []

theorem written_append (k : ℕ) (l m : List RelayPost) :
    written k (l ++ m) = written k l ++ written k m := List.flatMap_append

/-- A fold whose steps leave the posts leaves them. -/
theorem posts_foldl {α : Type*} {f : RelayLocalBindingService → α → RelayLocalBindingService}
    (hf : ∀ s a, (f s a).posts = s.posts) (l : List α) (s : RelayLocalBindingService) :
    (l.foldl f s).posts = s.posts := by
  induction l generalizing s with
  | nil => rfl
  | cons a l ih => rw [List.foldl_cons, ih, hf]

theorem posts_foldl_events {α : Type*}
    {f : RelayLocalBindingService × List ProxyEvent → α → RelayLocalBindingService × List ProxyEvent}
    (hf : ∀ x a, (f x a).1.posts = x.1.posts) (l : List α)
    (x : RelayLocalBindingService × List ProxyEvent) : (l.foldl f x).1.posts = x.1.posts := by
  induction l generalizing x with
  | nil => rfl
  | cons a l ih => rw [List.foldl_cons, ih, hf]

theorem posts_deferDestroyConnection (s : RelayLocalBindingService) (c : RelayLocalDeviceConnection) :
    (deferDestroyConnection alive s c).1.posts = s.posts := by
  unfold deferDestroyConnection
  split
  · rfl
  · rfl

theorem posts_keepAlive (s : RelayLocalBindingService) (c : RelayLocalDeviceConnection) :
    ∀ t ∈ keepAlive s c, t.posts = s.posts := by
  intro t ht
  unfold keepAlive at ht
  split at ht
  · cases ht
  · cases ht
    rfl

theorem posts_createConnectionToAddress (s : RelayLocalBindingService) (d i f : ℕ) (b : NetAddress) :
    (createConnectionToAddress R s d i b f).1.posts = s.posts := by
  unfold createConnectionToAddress
  split
  · rfl
  unfold createConnectionFrom
  dsimp only
  split
  · rfl
  split
  · rfl
  · rfl

theorem posts_createConnection (s : RelayLocalBindingService) (d i f : ℕ) (target : Target) :
    (createConnection R s d i target f).1.posts = s.posts := by
  cases target with
  | address b => exact posts_createConnectionToAddress s d i f b
  | hostname name port =>
    unfold createConnection createConnectionToHostname
    dsimp only
    split
    · rfl
    split
    · rfl
    · rfl

theorem posts_createUdpChannel (s : RelayLocalBindingService) (d u : ℕ) :
    (createUdpChannel R s d u).1.posts = s.posts := by
  unfold createUdpChannel
  split
  · rfl
  dsimp only
  split
  · rfl
  split
  · rfl
  · rfl

theorem posts_destroyConnection (s : RelayLocalBindingService) (k : ℕ) :
    (destroyConnection s k).posts = s.posts := by
  unfold destroyConnection
  split
  · rfl
  · exact posts_deferDestroyConnection _ _

theorem posts_destroyUdpChannel (s : RelayLocalBindingService) (u : ℕ) :
    (destroyUdpChannel s u).posts = s.posts := by
  unfold destroyUdpChannel
  split
  · rfl
  · rfl

/-- A datagram is not written to a connection. -/
theorem written_postUdpData (s : RelayLocalBindingService) (u : ℕ) (a : NetAddress) (data : Bytes)
    (k : ℕ) : written k (postUdpData s u a data).posts = written k s.posts := by
  unfold postUdpData
  dsimp only
  split
  · exact (written_append k _ _).trans (List.append_nil _)
  split
  · exact (written_append k _ _).trans (List.append_nil _)
  · exact (written_append k _ _).trans (List.append_nil _)

/-- A post is written to its connection, or lost when the connection is not connected. -/
theorem written_postData (s : RelayLocalBindingService) (k : ℕ) (data : Bytes) :
    (∀ m, written m (postData s k data).posts = written m s.posts) ∧
        (∀ d, s.localConnectionPool.get k = some d → d.deleteMark = true ∨ d.isConnected = false) ∨
      (∃ d, s.localConnectionPool.get k = some d ∧ d.deleteMark = false ∧ d.isConnected = true) ∧
        ∀ m, written m (postData s k data).posts =
          written m s.posts ++ if m = k then data else [] := by
  have hlost (m : ℕ) : written m (s.posts ++ [.lost k data]) = written m s.posts :=
    (written_append m _ _).trans (List.append_nil _)
  unfold postData
  dsimp only
  split
  · next hnone => exact .inl ⟨hlost, fun d hd => by simp [hnone] at hd⟩
  next d hd =>
  split
  · next hclosed =>
    refine .inl ⟨hlost, fun d' hd' => ?_⟩
    rw [hd] at hd'
    cases hd'
    simpa using hclosed
  · next hopen =>
    refine .inr ⟨⟨d, hd, by simpa using hopen⟩, fun m => ?_⟩
    change written m (s.posts ++ [.sent k data]) = _
    rw [written_append]
    simp [written, eq_comm]

theorem posts_processDnsResult (x : RelayLocalBindingService × List ProxyEvent) (i : ℕ) :
    (processDnsResult R alive x i).1.posts = x.1.posts := by
  unfold processDnsResult
  split
  · rfl
  next dnsFuture hi =>
  have hcreate : (createConnectionWithDnsResult R x.1 dnsFuture).1.posts = x.1.posts := by
    unfold createConnectionWithDnsResult
    split
    · rfl
    split
    · rfl
    next device _ =>
    generalize (if device.bindAddress.is4 then _ else _ : NetAddress) = targetAddress
    dsimp only
    split
    · rfl
    · exact posts_createConnectionToAddress _ _ _ _ _
  dsimp only
  split
  · split
    · next s hs =>
      rw [hs] at hcreate
      exact hcreate
    · next s result hs =>
      rw [hs] at hcreate
      exact hcreate
  · rfl

theorem posts_tick (s : RelayLocalBindingService) (nowMS : ℕ) :
    (tick R alive s nowMS).1.posts = s.posts := by
  have hdns : (processDnsResults R alive { s with localTicker := nowMS }).1.posts = s.posts :=
    posts_foldl_events posts_processDnsResult _ _
  have hidle (t : RelayLocalBindingService) :
      (deferDestroyIdleConnections alive t).1.posts = t.posts := by
    refine posts_foldl_events (fun x k => ?_) _ _
    unfold deferDestroyIdleConnection
    split
    · rfl
    · exact posts_deferDestroyConnection _ _
  have hudp (t : RelayLocalBindingService) : (deferDestroyIdleUdpChannels t).posts = t.posts := by
    refine posts_foldl (fun t u => ?_) _ _
    unfold deferDestroyIdleUdpChannel
    split
    · rfl
    · rfl
  have hclean (t : RelayLocalBindingService) : (cleanDyingConnections t).posts = t.posts :=
    posts_foldl (f := cleanConnection) (fun _ _ => rfl) _ _
  have hcleanUdp (t : RelayLocalBindingService) : (cleanDyingUdpChannels t).posts = t.posts :=
    posts_foldl (f := cleanUdpChannel) (fun _ _ => rfl) _ _
  change (cleanDyingUdpChannels (cleanDyingConnections (deferDestroyIdleUdpChannels
    (deferDestroyIdleConnections alive
      (processDnsResults R alive { s with localTicker := nowMS }).1).1))).posts = _
  rw [hcleanUdp, hclean, hudp, hidle, hdns]

/-- The calls of the relay that are no posts. -/
theorem posts_step {e : RelayEvent} (he : (∀ k data, e ≠ .postData k data) ∧
    ∀ u a data, e ≠ .postUdpData u a data) : (step R alive s e).1.posts = s.posts := by
  have hconnection {k : ℕ} {run : RelayLocalDeviceConnection →
      RelayLocalBindingService × List ProxyEvent} (hrun : ∀ c, (run c).1.posts = s.posts) :
      (s.onConnection k run).1.posts = s.posts := by
    unfold onConnection
    split
    · rfl
    · exact hrun _
  cases e with
  | createConnection d i target f => exact posts_createConnection s d i f target
  | createUdpChannel d u => exact posts_createUdpChannel s d u
  | destroyConnection k => exact posts_destroyConnection s k
  | destroyUdpChannel u => exact posts_destroyUdpChannel s u
  | keepUdpChannelAlive u =>
    change (keepUdpChannelAlive s u).posts = _
    unfold keepUdpChannelAlive keepUdpAlive
    split
    · rfl
    split
    · rfl
    · rfl
  | postData k data => exact absurd rfl (he.1 k data)
  | postUdpData u a data => exact absurd rfl (he.2 u a data)
  | onConnected k =>
    refine hconnection fun c => ?_
    split
    · rfl
    unfold onConnected
    dsimp only
    split
    · rfl
    split
    · generalize hc' : ({ c with isConnected := true, createConnectionFutureHandle := none } :
        RelayLocalDeviceConnection) = c'
      cases hkeep : keepAlive (s.store c') c' with
      | none => rfl
      | some t => exact posts_keepAlive (s.store c') c' t hkeep
    · rfl
  | onPeerClose k => exact hconnection fun c => posts_deferDestroyConnection s c
  | onData k data =>
    refine hconnection fun c => ?_
    split
    · unfold onData
      split
      · rfl
      · next t ht => exact posts_keepAlive _ _ t ht
    · rfl
  | onUdpData u data a =>
    rw [step]
    split
    · rfl
    · rfl
  | dnsResult i result =>
    rw [step]
    split
    · rfl
    split
    · rfl
    · rfl
  | tick nowMS => exact posts_tick s nowMS

end RelayLocalBindingService

end ProxyPlatform
