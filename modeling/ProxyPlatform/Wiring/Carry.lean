import ProxyPlatform.Wiring.Silence

/-!
# What is carried through a tunnel

Data goes through a tunnel both ways: what a client sends goes to the connection it knows, and
what comes from a connection goes to its client. Here the data is what was sent and received so
far at either end, a list for each client and one for each connection.

* `Carried`: what went out on a connection is what its client sent. A client that knows no
  connection has sent nothing, and nothing went out on a connection that no client knows;
* `Returned`: what a client got is what came in on the connection that it knows or is to learn of;
* `Carried.step`, `Returned.step`: the steps of the tunnels keep both;
* `Carried.send`, `Returned.pass`: so does the data that goes through.
-/

namespace ProxyPlatform

variable {β : Type*} {x y : Routes} {r t : Links} {l : TunnelLabel} {i f k n : ℕ}

/-! ## Where clients and answers come from -/

theorem TunnelStep.lastClient_le (hs : TunnelStep x r l y t) : x.lastClient ≤ y.lastClient := by
  cases hs with
  | quiet hx | accept _ _ hx | peerClose _ _ _ hx | refuse _ _ _ _ _ hx | look _ _ _ _ _ _ _ hx
  | «open» _ _ _ _ _ _ _ hx | take _ _ _ _ _ _ hx | drop _ hx | resolve _ _ _ _ _ _ hx
  | fail _ _ _ _ hx | connect _ _ _ _ hx | close _ _ _ _ hx | idle _ _ _ _ hx | clean _ _ _ hx =>
    exact hx.lastClient

/-- A client is new and knows nothing, or knew the same, or takes up an answer. -/
theorem TunnelStep.client_cases {b : Bool} (hs : TunnelStep x r l y t) (hi : y.client i = some (b, n)) :
    (x.lastClient < i ∧ n = 0) ∨ (∃ b, x.client i = some (b, n)) ∨
      ∃ b f result, x.client i = some (b, 0) ∧ x.future f = some (i, .ready result) ∧
        n = result.getD 0 := by
  cases hs with
  | quiet hx | refuse _ _ _ _ _ hx | look _ _ _ _ _ _ _ hx | «open» _ _ _ _ _ _ _ hx
  | resolve _ _ _ _ _ _ hx | fail _ _ _ _ hx | connect _ _ _ _ hx | idle _ _ _ _ hx
  | clean _ _ _ hx =>
    rw [hx.client] at hi
    exact .inr (.inl ⟨b, hi⟩)
  | accept j hj hx hlast hr =>
    rw [hx.client, Function.update_apply] at hi
    split at hi
    · next hij =>
      cases hi
      exact .inl ⟨hij ▸ hj, rfl⟩
    · exact .inr (.inl ⟨b, hi⟩)
  | peerClose j m hj hx hr | close k j p hk hx hr =>
    rw [hx.client] at hi
    exact .inr (.inl (Routes.marked_eq_some hi))
  | take j f b result hj hf hx hr =>
    rw [hx.client, Function.update_apply] at hi
    split at hi
    · next hij =>
      cases hi
      subst hij
      exact .inr (.inr ⟨b, f, result, hj, hf, rfl⟩)
    · exact .inr (.inl ⟨_, hi⟩)
  | drop j hx hr =>
    rw [hx.client, Function.update_apply] at hi
    split at hi
    · cases hi
    · exact .inr (.inl ⟨b, hi⟩)

/-- An answer stands until its client takes it up, or is dropped. -/
theorem TunnelStep.future_cases {a : Option ℕ} (hs : TunnelStep x r l y t)
    (hf : x.future f = some (i, .ready a)) : y.future f = some (i, .ready a) ∨
      y.client i = none ∨ ∃ b, y.client i = some (b, a.getD 0) := by
  have hle := x.future_le f _ hf
  cases hs with
  | quiet hx | accept _ _ hx | peerClose _ _ _ hx | resolve _ _ _ _ _ _ hx | clean _ _ _ hx =>
    rw [hx.future]
    exact .inl hf
  | refuse j g b hj hg hx hr | look j g d b hj hg hd hx hr | «open» j g n b hj hg hn hx hr =>
    rw [hx.future, Function.update_of_ne (by omega)]
    exact .inl hf
  | fail _ _ _ _ hx | connect _ _ _ _ hx | close _ _ _ _ hx | idle _ _ _ _ hx =>
    rw [hx.future]
    exact .inl (Routes.settled_ready hf)
  | take j g b result hj hg hx hr =>
    by_cases hfg : f = g
    · subst hfg
      rw [hf] at hg
      cases hg
      rw [hx.client, Function.update_self]
      exact .inr (.inr ⟨b, rfl⟩)
    · rw [hx.future, Function.update_of_ne hfg]
      exact .inl hf
  | drop j hx hr =>
    by_cases hij : i = j
    · rw [hx.client, hij, Function.update_self]
      exact .inr (.inl rfl)
    · rw [hx.future, Routes.left, hf, Option.filter_some, if_pos (by simpa using hij)]
      exact .inl rfl

/-! ## Uploads -/

/-- What went out on the connections is what their clients sent. -/
structure Carried (sent out : ℕ → List β) (x : Routes) (r : Links) : Prop where
  known : ∀ i k, x.client i = some (false, k) → k ≠ 0 → out k = sent i
  unknown : ∀ i b, x.client i = some (b, 0) → sent i = []
  fresh : ∀ i, x.lastClient < i → sent i = []
  /-- A connection that data went out on is known to its client. -/
  met : ∀ k, out k ≠ [] → r.Met k ∧ ∀ f i, x.future f ≠ some (i, .ready (some k))

variable {sent out got came : ℕ → List β} {data : List β}

theorem Carried.step (h : Carried sent out x r) (hs : TunnelStep x r l y t) : Carried sent out y t where
  known i k hi hk := by
    rcases hs.learns hi hk with ⟨b, hb⟩ | ⟨-, f, hf⟩
    · rcases hs.unmarked hi with hnone | ⟨m, hm⟩
      · rw [hnone] at hb
        cases hb
      · rw [hb] at hm
        cases hm
        exact h.known i k hb hk
    · obtain ⟨b, hb⟩ := x.waiter f i _ hf
      rw [h.unknown i b hb]
      by_contra hout
      exact (h.met k hout).2 f i hf
  unknown i b hi := by
    rcases hs.client_cases hi with ⟨hlt, -⟩ | ⟨b, hb⟩ | ⟨b, -, -, hb, -⟩
    · exact h.fresh i hlt
    · exact h.unknown i b hb
    · exact h.unknown i b hb
  fresh i hi := h.fresh i (hs.lastClient_le.trans_lt hi)
  met k hk := by
    obtain ⟨hmet, hready⟩ := h.met k hk
    refine ⟨hs.met hmet, fun f i hf => ?_⟩
    rcases hs.answers hf with hf | ⟨-, -, j, hj, -⟩
    · exact hready f i hf
    · cases hmet.future _ hj

/-- A client sends data to the connection that it knows. It goes out, or the client is marked. -/
theorem Carried.send {sent' out' : ℕ → List β} {b : Bool} (h : Carried sent out x r) (hm : Mirrored x r)
    (hi : x.client i = some (b, k)) (hk : k ≠ 0)
    (hsent : ∀ j, sent' j = sent j ++ if j = i then data else [])
    (hout : out' = out ∧ b = true ∨ (∃ v, r.link k = some v) ∧
      ∀ m, out' m = out m ++ if m = k then data else []) : Carried sent' out' x r := by
  have hleads := hm.known i b k hi hk
  -- A connection that is there leads to one client.
  have hone {j : ℕ} (hv : ∃ v, r.link k = some v) (hj : r.Leads k j) : j = i := by
    obtain ⟨v, hv⟩ := hv
    rw [← hj.client v hv, hleads.client v hv]
  refine ⟨fun j m hj hm' => ?_, fun j b' hj => ?_, fun j hj => ?_, fun m hm' => ?_⟩
  · rw [hsent]
    by_cases hji : j = i
    · subst hji
      rw [hi] at hj
      cases hj
      rcases hout with ⟨-, hb⟩ | ⟨-, hout⟩
      · cases hb
      · rw [hout, if_pos rfl, if_pos rfl, h.known j k hi hk]
    · rw [if_neg hji, List.append_nil, ← h.known j m hj hm']
      rcases hout with ⟨hout, -⟩ | ⟨hlive, hout⟩
      · rw [hout]
      · rw [hout, if_neg, List.append_nil]
        rintro rfl
        exact hji (hone hlive (hm.known j _ m hj hm'))
  · rw [hsent, if_neg, List.append_nil]
    · exact h.unknown j b' hj
    · rintro rfl
      rw [hi] at hj
      cases hj
      exact hk rfl
  · have hle := x.client_le i _ hi
    rw [hsent, if_neg (by omega), List.append_nil]
    exact h.fresh j hj
  · rcases hout with ⟨hout, -⟩ | ⟨hlive, hout⟩
    · exact h.met m (hout ▸ hm')
    · by_cases hmk : m = k
      · subst hmk
        refine ⟨hleads.toMet, fun f j hf => ?_⟩
        obtain rfl := hone hlive (hm.answered f j m hf)
        obtain ⟨b', hb'⟩ := x.waiter f j _ hf
        rw [hi] at hb'
        cases hb'
        exact hk rfl
      · rw [hout, if_neg hmk, List.append_nil] at hm'
        exact h.met m hm'

/-! ## Downloads -/

/-- What the clients got is what came in on their connections. -/
structure Returned (got came : ℕ → List β) (x : Routes) (r : Links) : Prop where
  known : ∀ i b k, x.client i = some (b, k) → k ≠ 0 → got i = came k
  answered : ∀ f i k, x.future f = some (i, .ready (some k)) → got i = came k
  waiting : ∀ i b, x.client i = some (b, 0) → (∀ f k, x.future f ≠ some (i, .ready (some k))) → got i = []
  fresh : ∀ i, x.lastClient < i → got i = []
  met : ∀ k, came k ≠ [] → r.Met k

theorem Returned.step (h : Returned got came x r) (hm : Mirrored x r) (hs : TunnelStep x r l y t) :
    Returned got came y t where
  known i b k hi hk := by
    rcases hs.learns hi hk with ⟨b, hb⟩ | ⟨-, f, hf⟩
    · exact h.known i b k hb hk
    · exact h.answered f i k hf
  answered f i k hf := by
    rcases hs.answers hf with hf | ⟨-, hpending, j, hj, -⟩
    · exact h.answered f i k hf
    · -- The connection is new to its client, which has got nothing yet.
      obtain ⟨b, hb⟩ := x.waiter f i _ hpending
      rw [h.waiting i b hb fun g n hg => ?_]
      · by_contra hne
        cases (h.met k (Ne.symm hne)).future _ hj
      · obtain rfl := x.once f g i _ _ hpending hg
        rw [hpending] at hg
        cases hg
  waiting i b hi hnone := by
    rcases hs.client_cases hi with ⟨hlt, -⟩ | ⟨b', hb⟩ | ⟨b', f, result, hb, hf, hzero⟩
    · exact h.fresh i hlt
    · refine h.waiting i b' hb fun f k hf => ?_
      rcases hs.future_cases hf with hf | hgone | ⟨b'', hb''⟩
      · exact hnone f k hf
      · rw [hi] at hgone
        cases hgone
      · rw [hi] at hb''
        cases hb''
        exact (hm.answered f i 0 hf).pos.ne rfl
    · refine h.waiting i b' hb fun g k hg => ?_
      obtain rfl := x.once f g i _ _ hf hg
      rw [hf] at hg
      cases hg
      exact (hm.answered f i k hf).pos.ne hzero
  fresh i hi := h.fresh i (hs.lastClient_le.trans_lt hi)
  met k hk := hs.met (h.met k hk)

/-- Data of an open connection is passed on to its client. -/
theorem Returned.pass {got' came' : ℕ → List β} {v : Bool × ℕ} (h : Returned got came x r)
    (hm : Mirrored x r) (hk : r.link k = some (i, .opened)) (hi : x.client i = some v)
    (hgot : ∀ j, got' j = got j ++ if j = i then data else [])
    (hcame : ∀ m, came' m = came m ++ if m = k then data else []) : Returned got' came' x r := by
  obtain ⟨b, n⟩ := v
  have hjoined := (hm.opened k i hk).knows b n hi
  -- The client gets data of this connection only, and the connection serves this client only.
  have hone {j m : ℕ} (hj : r.Leads m j) (hji : j = i → m = k) :
      (if j = i then data else []) = if m = k then data else [] := by
    refine if_congr ⟨hji, ?_⟩ rfl rfl
    rintro rfl
    exact (hj.client _ hk).symm
  refine ⟨fun j b' m hj hne => ?_, fun f j m hf => ?_, fun j b' hj hnone => ?_, fun j hj => ?_, fun m hm' => ?_⟩
  · rw [hgot, hcame, h.known j b' m hj hne, hone (hm.known j b' m hj hne)]
    rintro rfl
    rw [hi] at hj
    cases hj
    rcases hjoined with heq | ⟨f, hf⟩
    · exact heq
    · -- A client that waits knows none.
      obtain ⟨b'', hb''⟩ := x.waiter f j _ hf
      rw [hi] at hb''
      cases hb''
      exact absurd rfl hne
  · rw [hgot, hcame, h.answered f j m hf, hone (hm.answered f j m hf)]
    rintro rfl
    obtain ⟨b'', hb''⟩ := x.waiter f j _ hf
    rw [hi] at hb''
    cases hb''
    rcases hjoined with heq | ⟨g, hg⟩
    · exact absurd heq (r.link_le k _ hk).1.ne
    · obtain rfl := x.once f g j _ _ hf hg
      rw [hf] at hg
      cases hg
      rfl
  · rw [hgot, if_neg, List.append_nil]
    · exact h.waiting j b' hj hnone
    · rintro rfl
      rw [hi] at hj
      cases hj
      rcases hjoined with heq | ⟨f, hf⟩
      · exact (r.link_le k _ hk).1.ne heq
      · exact hnone f k hf
  · have hle := x.client_le i _ hi
    rw [hgot, if_neg (by omega), List.append_nil]
    exact h.fresh j hj
  · by_cases hmk : m = k
    · exact hmk ▸ (Links.leads_of_opened hk).toMet
    · rw [hcame, if_neg hmk, List.append_nil] at hm'
      exact h.met m hm'

end ProxyPlatform
