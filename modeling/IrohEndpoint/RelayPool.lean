import Mathlib.Data.Multiset.Count
import IrohEndpoint.HomeRelay

/-!
# The relay pool

A `connect` call that needs a relay looks up the URL (`ensure_relay`). The first
call to find none claims the opening of the URL and dials, the others wait for its
outcome; the claim is released when the dial ends, and when the call is cancelled.
A dial that succeeds is registered under the next pool key, and a foreign relay
that dies leaves the pool together with its URL.

`RelayPool` is that part of the endpoint, with the receives of the pump, and
`RelayPool.machine` says what may happen to it. Its invariant (`RelayPool.Inv`) ties
the URLs being opened to the calls that dial them, and the foreign keys in the pool
to the URLs: a URL is being opened, or has a key, or neither.
-/

namespace IrohEndpoint

open Transition

/-! ## The machine -/

/-- What the pump is about to do with the relays. -/
inductive PumpStage
  | looping
  /-- A redial has resolved with a connection, which is to be handled. -/
  | dialed (conn : RelayConn)
  /-- The relays are closed. -/
  | torn
  /-- The receives have ended too. -/
  | ended

/-- The relays are not closed yet. -/
def PumpStage.running : PumpStage → Bool
  | looping | dialed _ => true
  | torn | ended => false

/-- The stage of the pump. -/
def PumpPc.stage : PumpPc → PumpStage
  | redialed conn => .dialed conn
  | selfWake | settling => .torn
  | done => .ended
  | _ => .looping

/-- The relays of an endpoint, the calls that open them, and their receives. -/
structure RelayPool where
  pool : Table RelayKey RelayConn
  /-- The pool keys of the normalized URLs, and those being opened. -/
  keys : Table String RelayKey
  opening : List String
  nextKey : RelayKey
  /-- The normalized URL that a call is dialing. -/
  dials : TaskId → Option String
  /-- The receives of the pump, and those it is to arm. -/
  recvs : Multiset (RelayKey × RelayConn)
  /-- The connections that were closed, and the number of those opened. -/
  closedConns : List RelayConn
  opened : ℕ
  stage : PumpStage
  closed : Bool

/-- The normalized URL that a call is dialing. -/
def ConnectTask.dials (task : ConnectTask) : Option String :=
  match task.phase with
  | .opening target => (target.url task.plan).map normalizeRelayUrl
  | _ => none

/-- The normalized URLs that the calls are dialing. -/
def dialsOf (connects : Table TaskId ConnectTask) (tid : TaskId) : Option String :=
  (connects.lookup tid).bind ConnectTask.dials

/-- The relays of the endpoint. -/
def Sys.relays (s : Sys) : RelayPool where
  pool := s.st.relayPool
  keys := s.st.relayKeys
  opening := s.st.relayOpening
  nextKey := s.st.nextRelayKey
  dials := dialsOf s.connects
  recvs := ↑(s.pump.relayRecvs ++ s.st.newRelays)
  closedConns := s.st.closedRelays
  opened := s.relayConns
  stage := s.pump.pc.stage
  closed := s.st.closed

namespace RelayPool

/-- The state with the dial of `url` by the call `tid` ended. -/
def release (r : RelayPool) (tid : TaskId) (url : String) : RelayPool :=
  { r with opening := r.opening.erase url, dials := Function.update r.dials tid none }

/-- The state with the connection of a foreign relay out of the pool. -/
def retire (r : RelayPool) (key : RelayKey) : RelayPool :=
  { r with
    pool := r.pool.erase key
    keys := Table.retain (fun _ mapped => mapped != key) r.keys }

/-- What may happen to the relays. -/
inductive Step : RelayPool → RelayPool → Prop
  /-- A call claims the opening of a URL, and dials it. -/
  | claim {r : RelayPool} {tid : TaskId} {url : String} :
      r.dials tid = none → r.keys.lookup url = none → url ∉ r.opening →
      Step r { r with
        opening := url :: r.opening
        dials := Function.update r.dials tid (some url) }
  /-- The dial fails, or the call is cancelled. -/
  | release {r : RelayPool} {tid : TaskId} {url : String} :
      r.dials tid = some url → Step r (r.release tid url)
  /-- The dial resolves with a connection, which takes the next pool key. -/
  | register {r : RelayPool} {tid : TaskId} {url : String} :
      r.dials tid = some url →
      Step r { r.release tid url with
        pool := r.pool.insert r.nextKey ⟨r.opened⟩
        keys := r.keys.insert url r.nextKey
        nextKey := r.nextKey + 1
        recvs := (r.nextKey, ⟨r.opened⟩) ::ₘ r.recvs
        opened := r.opened + 1 }
  /-- The connection of the home relay fails: it leaves the pool, closed. -/
  | retireHome {r : RelayPool} {conn : RelayConn} :
      r.pool.lookup homeRelay = some conn →
      Step r { r with pool := r.pool.erase homeRelay, closedConns := conn :: r.closedConns }
  /-- A foreign relay fails: it leaves the pool and the URLs, closed. -/
  | retire {r : RelayPool} {key : RelayKey} {conn : RelayConn} :
      key ≠ homeRelay → r.pool.lookup key = some conn →
      Step r { r.retire key with closedConns := conn :: r.closedConns }
  /-- The receive of a connection that has left the pool resolves. -/
  | take {r : RelayPool} {key : RelayKey} {conn : RelayConn} :
      r.pool.lookup key ≠ some conn → Step r { r with recvs := r.recvs.erase (key, conn) }
  /-- A redial of the home relay resolves with a connection, -/
  | dial {r : RelayPool} :
      r.stage = .looping →
      Step r { r with opened := r.opened + 1, stage := .dialed ⟨r.opened⟩ }
  /-- which takes the key of the home relay, -/
  | reoccupy {r : RelayPool} {conn : RelayConn} :
      r.stage = .dialed conn → r.closed = false → r.pool.lookup homeRelay = none →
      Step r { r with
        pool := r.pool.insert homeRelay conn
        recvs := (homeRelay, conn) ::ₘ r.recvs
        stage := .looping }
  /-- or, if the endpoint was closed, is closed. -/
  | drop {r : RelayPool} {conn : RelayConn} :
      r.stage = .dialed conn → r.closed = true →
      Step r { r with closedConns := conn :: r.closedConns, stage := .looping }
  | close {r : RelayPool} : Step r { r with closed := true }
  /-- The pump closes the relays that are in the pool, -/
  | tear {r : RelayPool} :
      r.stage = .looping →
      Step r { r with closedConns := r.pool.values.reverse ++ r.closedConns, stage := .torn }
  /-- and its receives end. -/
  | settle {r : RelayPool} {recvs : Multiset (RelayKey × RelayConn)} :
      r.stage = .torn → recvs ≤ r.recvs → Step r { r with recvs := recvs, stage := .ended }

/-- The machine starts with the home relay in the pool. -/
def machine : System RelayPool where
  init := {r | ∃ url, r = {
    pool := AList.insert homeRelay ⟨0⟩ ∅
    keys := AList.insert url homeRelay ∅
    opening := []
    nextKey := 1
    dials := fun _ => none
    recvs := {(homeRelay, ⟨0⟩)}
    closedConns := []
    opened := 1
    stage := .looping
    closed := false }}
  step := Step

/-! ## The URLs and the keys -/

/-- The invariant of the URLs and the pool keys. -/
structure Inv (r : RelayPool) : Prop where
  /-- The URLs being opened are those that calls are dialing, -/
  nodup : r.opening.Nodup
  dialing : ∀ url, url ∈ r.opening ↔ ∃ tid, r.dials tid = some url
  /-- each by one call, and none of them has a pool key. -/
  single : ∀ tid tid' url, r.dials tid = some url → r.dials tid' = some url → tid = tid'
  unkeyed : ∀ url ∈ r.opening, r.keys.lookup url = none
  /-- The keys are those issued so far, each of one URL. -/
  home : homeRelay < r.nextKey
  issued : ∀ key conn, r.pool.lookup key = some conn → key < r.nextKey
  known : ∀ url key, r.keys.lookup url = some key → key < r.nextKey
  injective : ∀ url url' key, r.keys.lookup url = some key → r.keys.lookup url' = some key →
    url = url'
  /-- The foreign keys of the URLs are those in the pool. -/
  pooled : ∀ url key, r.keys.lookup url = some key → key ≠ homeRelay →
    ∃ conn, r.pool.lookup key = some conn
  mapped : ∀ key conn, r.pool.lookup key = some conn → key ≠ homeRelay →
    ∃ url, r.keys.lookup url = some key

/-- The dial of a URL ends. -/
theorem Inv.release {r : RelayPool} (h : r.Inv) {tid : TaskId} {url : String}
    (hd : r.dials tid = some url) : (r.release tid url).Inv := by
  have hcases : ∀ {tid' url'}, Function.update r.dials tid none tid' = some url' →
      tid' ≠ tid ∧ r.dials tid' = some url' := by
    intro tid' url' h
    rw [Function.update_apply] at h
    split at h <;> rename_i hne
    · cases h
    · exact ⟨hne, h⟩
  refine { h with nodup := h.nodup.erase url, dialing := ?_, single := ?_, unkeyed := ?_ }
  · intro url'
    simp only [RelayPool.release, h.nodup.mem_erase_iff, h.dialing url']
    constructor
    · rintro ⟨hne, tid', hd'⟩
      refine ⟨tid', ?_⟩
      rw [Function.update_of_ne, hd']
      rintro rfl
      exact hne (Option.some.inj (hd'.symm.trans hd))
    · -- Only the call that ends was dialing `url`.
      rintro ⟨tid', hd'⟩
      obtain ⟨hne, hd'⟩ := hcases hd'
      refine ⟨?_, tid', hd'⟩
      rintro rfl
      exact hne (h.single tid' tid url' hd' hd)
  · exact fun tid₁ tid₂ url' h₁ h₂ => h.single tid₁ tid₂ url' (hcases h₁).2 (hcases h₂).2
  · exact fun url' hu => h.unkeyed url' (List.mem_of_mem_erase hu)

/-- A relay is registered under a URL that is neither opened nor mapped. -/
theorem Inv.register {r : RelayPool} (h : r.Inv) {url : String} (ho : url ∉ r.opening)
    (hk : r.keys.lookup url = none) (conn : RelayConn) (recvs : Multiset (RelayKey × RelayConn))
    (opened : ℕ) :
    Inv { r with
      pool := r.pool.insert r.nextKey conn
      keys := r.keys.insert url r.nextKey
      nextKey := r.nextKey + 1
      recvs := recvs
      opened := opened } := by
  have hkeys : ∀ {url' key}, (r.keys.insert url r.nextKey).lookup url' = some key →
      (url' = url ∧ key = r.nextKey) ∨ (url' ≠ url ∧ r.keys.lookup url' = some key) :=
    Table.lookup_insert_some.1
  have hpool : ∀ {key c}, (r.pool.insert r.nextKey conn).lookup key = some c →
      (key = r.nextKey ∧ c = conn) ∨ (key ≠ r.nextKey ∧ r.pool.lookup key = some c) :=
    Table.lookup_insert_some.1
  refine { h with
    unkeyed := ?_, home := Nat.lt_succ_of_lt h.home, issued := ?_, known := ?_, injective := ?_,
    pooled := ?_, mapped := ?_ }
  · intro url' hu
    rw [Table.lookup_insert_eq, if_neg, h.unkeyed url' hu]
    rintro rfl
    exact ho hu
  · intro key c hc
    rcases hpool hc with ⟨rfl, -⟩ | ⟨-, hc⟩
    · exact Nat.lt_succ_self _
    · exact Nat.lt_succ_of_lt (h.issued key c hc)
  · intro url' key hu
    rcases hkeys hu with ⟨-, rfl⟩ | ⟨-, hu⟩
    · exact Nat.lt_succ_self _
    · exact Nat.lt_succ_of_lt (h.known url' key hu)
  · -- The key is new: no other URL has it.
    intro url₁ url₂ key h₁ h₂
    rcases hkeys h₁ with ⟨h₁, hk₁⟩ | ⟨-, h₁⟩ <;> rcases hkeys h₂ with ⟨h₂, hk₂⟩ | ⟨-, h₂⟩
    · rw [h₁, h₂]
    · exact absurd hk₁ (h.known url₂ key h₂).ne
    · exact absurd hk₂ (h.known url₁ key h₁).ne
    · exact h.injective url₁ url₂ key h₁ h₂
  · intro url' key hu hne
    rw [Table.lookup_insert_eq]
    split
    · exact ⟨conn, rfl⟩
    · rcases hkeys hu with ⟨-, hk⟩ | ⟨-, hu⟩
      · contradiction
      · exact h.pooled url' key hu hne
  · intro key c hc hne
    rcases hpool hc with ⟨rfl, -⟩ | ⟨-, hc⟩
    · exact ⟨url, AList.lookup_insert _⟩
    · obtain ⟨url', hu⟩ := h.mapped key c hc hne
      refine ⟨url', ?_⟩
      rw [Table.lookup_insert_eq, if_neg, hu]
      rintro rfl
      rw [hk] at hu
      cases hu

/-- A foreign relay leaves the pool and the URLs. -/
theorem Inv.retire {r : RelayPool} (h : r.Inv) {key : RelayKey} (conns : List RelayConn) :
    Inv { r.retire key with closedConns := conns } := by
  have hpool : ∀ {key' conn}, (r.pool.erase key).lookup key' = some conn →
      key' ≠ key ∧ r.pool.lookup key' = some conn :=
    Table.lookup_erase_some.1
  have hkeys : ∀ {url key'}, (Table.retain (fun _ mapped => mapped != key) r.keys).lookup url =
      some key' ↔ r.keys.lookup url = some key' ∧ key' ≠ key := by
    intro url key'
    rw [Table.lookup_retain, bne_iff_ne]
  refine { h with unkeyed := ?_, issued := ?_, known := ?_, injective := ?_, pooled := ?_, mapped := ?_ }
  · intro url hu
    rw [Option.eq_none_iff_forall_ne_some]
    intro key' hk
    have hmapped := (hkeys.1 hk).1
    rw [h.unkeyed url hu] at hmapped
    cases hmapped
  · exact fun key' conn hc => h.issued key' conn (hpool hc).2
  · exact fun url key' hu => h.known url key' (hkeys.1 hu).1
  · exact fun url url' key' hu hu' => h.injective url url' key' (hkeys.1 hu).1 (hkeys.1 hu').1
  · intro url key' hu hne
    obtain ⟨hu, hk⟩ := hkeys.1 hu
    rw [RelayPool.retire, Table.lookup_erase_eq, if_neg hk]
    exact h.pooled url key' hu hne
  · intro key' conn hc hne
    obtain ⟨hk, hc⟩ := hpool hc
    obtain ⟨url, hu⟩ := h.mapped key' conn hc hne
    exact ⟨url, hkeys.2 ⟨hu, hk⟩⟩

/-- A call claims a URL that nobody opens and that has no key. -/
theorem Inv.claim {r : RelayPool} (h : r.Inv) {tid : TaskId} {url : String}
    (hd : r.dials tid = none) (hk : r.keys.lookup url = none) (ho : url ∉ r.opening) :
    Inv { r with
      opening := url :: r.opening
      dials := Function.update r.dials tid (some url) } := by
  have hcases : ∀ {tid' url'}, Function.update r.dials tid (some url) tid' = some url' ↔
      (tid' = tid ∧ url' = url) ∨ r.dials tid' = some url' := by
    intro tid' url'
    rw [Function.update_apply]
    split <;> rename_i heq
    · simp [heq, hd, eq_comm]
    · simp [heq]
  have hnew : ∀ tid', r.dials tid' ≠ some url := fun tid' hd' => ho ((h.dialing url).2 ⟨tid', hd'⟩)
  refine { h with
    nodup := List.nodup_cons.2 ⟨ho, h.nodup⟩, dialing := ?_, single := ?_, unkeyed := ?_ }
  · intro url'
    simp only [List.mem_cons, h.dialing url', hcases]
    constructor
    · rintro (rfl | ⟨tid', hd'⟩)
      · exact ⟨tid, .inl ⟨rfl, rfl⟩⟩
      · exact ⟨tid', .inr hd'⟩
    · rintro ⟨tid', ⟨-, rfl⟩ | hd'⟩
      · exact .inl rfl
      · exact .inr ⟨tid', hd'⟩
  · intro tid₁ tid₂ url' h₁ h₂
    rcases hcases.1 h₁ with ⟨ht₁, hu₁⟩ | h₁ <;> rcases hcases.1 h₂ with ⟨ht₂, hu₂⟩ | h₂
    · rw [ht₁, ht₂]
    · exact absurd (hu₁ ▸ h₂) (hnew tid₂)
    · exact absurd (hu₂ ▸ h₁) (hnew tid₁)
    · exact h.single tid₁ tid₂ url' h₁ h₂
  · intro url' hu
    rcases List.mem_cons.1 hu with rfl | hu
    · exact hk
    · exact h.unkeyed url' hu

/-- The connection of the home relay changes. -/
theorem Inv.rehome {r : RelayPool} (h : r.Inv) {pool : Table RelayKey RelayConn}
    (hpool : ∀ key, key ≠ homeRelay → pool.lookup key = r.pool.lookup key)
    (recvs : Multiset (RelayKey × RelayConn)) (conns : List RelayConn) (stage : PumpStage) :
    Inv { r with pool := pool, recvs := recvs, closedConns := conns, stage := stage } := by
  refine { h with issued := ?_, pooled := ?_, mapped := ?_ }
  · intro key conn hc
    by_cases hk : key = homeRelay
    · exact hk ▸ h.home
    · exact h.issued key conn (hpool key hk ▸ hc)
  · intro url key hu hk
    dsimp only
    rw [hpool key hk]
    exact h.pooled url key hu hk
  · exact fun key conn hc hk => h.mapped key conn (hpool key hk ▸ hc) hk

/-- Every step keeps the invariant. -/
theorem Inv.step {r r' : RelayPool} (h : r.Inv) (hst : Step r r') : r'.Inv := by
  cases hst with
  | claim hd hk ho => exact h.claim hd hk ho
  | release hd => exact h.release hd
  | @register tid url hd =>
    have ho : url ∈ r.opening := (h.dialing url).2 ⟨tid, hd⟩
    exact (h.release hd).register h.nodup.not_mem_erase (h.unkeyed url ho) _ _ _
  | retireHome =>
    refine h.rehome (fun key hk => ?_) _ _ _
    rw [Table.lookup_erase_eq, if_neg hk]
  | retire => exact h.retire _
  | reoccupy =>
    refine h.rehome (fun key hk => ?_) _ _ _
    rw [Table.lookup_insert_eq, if_neg hk]
  | _ => exact { h with }

/-- The invariant holds in every reachable state of the machine. -/
theorem Inv.reachable {r : RelayPool} (hr : machine.Reachable r) : r.Inv := by
  refine hr.invariant ?_ fun _ _ _ hst hi => hi.step hst
  rintro _ ⟨url, rfl⟩
  have hpool : ∀ {key conn}, (AList.insert homeRelay ⟨0⟩ ∅ : Table RelayKey RelayConn).lookup key =
      some conn → key = homeRelay ∧ conn = ⟨0⟩ := Table.lookup_singleton.1
  have hkeys : ∀ {url' key}, (AList.insert url homeRelay ∅ : Table String RelayKey).lookup url' =
      some key → url' = url ∧ key = homeRelay := Table.lookup_singleton.1
  refine ⟨List.nodup_nil, by simp, nofun, nofun, Nat.zero_lt_one, ?_, ?_, ?_, ?_, ?_⟩
  · exact fun key conn hc => (hpool hc).1.trans_lt Nat.zero_lt_one
  · exact fun url' key hu => (hkeys hu).2.trans_lt Nat.zero_lt_one
  · exact fun url₁ url₂ key h₁ h₂ => (hkeys h₁).1.trans (hkeys h₂).1.symm
  · exact fun url' key hu hk => absurd (hkeys hu).2 hk
  · exact fun key conn hc hk => absurd (hpool hc).1 hk

/-! ## The connections and their receives -/

/-- The invariant of the connections and their receives. -/
structure Wired (r : RelayPool) : Prop where
  /-- The connections are those opened so far, each under one key. -/
  opened : ∀ key conn, r.pool.lookup key = some conn → conn.id < r.opened
  single : ∀ key key' conn, r.pool.lookup key = some conn → r.pool.lookup key' = some conn →
    key = key'
  closed : ∀ conn ∈ r.closedConns, conn.id < r.opened
  /-- The pool holds no closed connection, until the pump closes them all. -/
  live : r.stage.running = true → ∀ key conn, r.pool.lookup key = some conn →
    conn ∉ r.closedConns
  /-- The result of a redial is used for the first time. -/
  fresh : ∀ conn, r.stage = .dialed conn → conn.id < r.opened ∧ conn ∉ r.closedConns ∧
    (∀ key, r.pool.lookup key ≠ some conn) ∧ ∀ key, (key, conn) ∉ r.recvs
  /-- A connection in the pool has one receive, until the pump ends, -/
  armed : (∀ key conn, r.pool.lookup key = some conn → r.recvs.count (key, conn) = 1) ∨
    r.stage = .ended
  /-- and every other receive is of a connection that was closed. -/
  started : ∀ key conn, (key, conn) ∈ r.recvs → conn.id < r.opened
  stale : ∀ key conn, (key, conn) ∈ r.recvs → r.pool.lookup key = some conn ∨
    conn ∈ r.closedConns

/-- A connection that was just opened is new. -/
theorem Wired.new {r : RelayPool} (h : r.Wired) :
    (∀ key, r.pool.lookup key ≠ some ⟨r.opened⟩) ∧ (⟨r.opened⟩ : RelayConn) ∉ r.closedConns ∧
      ∀ key, (key, (⟨r.opened⟩ : RelayConn)) ∉ r.recvs :=
  ⟨fun key hc => (h.opened key _ hc).ne rfl, fun hc => (h.closed _ hc).ne rfl,
    fun key hc => (h.started key _ hc).ne rfl⟩

/-- A connection that is not in use yet takes a free pool key, and a receive. -/
theorem Wired.insert {r : RelayPool} (h : r.Wired) {key : RelayKey} {conn : RelayConn}
    (hkey : r.pool.lookup key = none) (hopened : conn.id < r.opened)
    (hpool : ∀ key, r.pool.lookup key ≠ some conn) (hclosed : conn ∉ r.closedConns)
    (hrecv : ∀ key, (key, conn) ∉ r.recvs) {stage : PumpStage}
    (hstage : stage.running = true → r.stage.running = true)
    (hended : r.stage = .ended → stage = .ended)
    (hdialed : ∀ c, stage = .dialed c → r.stage = .dialed c ∧ c ≠ conn) :
    Wired { r with
      pool := r.pool.insert key conn
      recvs := (key, conn) ::ₘ r.recvs
      stage := stage } := by
  have hcases : ∀ {key' c}, (r.pool.insert key conn).lookup key' = some c →
      (key' = key ∧ c = conn) ∨ (key' ≠ key ∧ r.pool.lookup key' = some c) :=
    Table.lookup_insert_some.1
  refine ⟨?_, ?_, h.closed, ?_, ?_, ?_, ?_, ?_⟩
  · intro key' c hc
    rcases hcases hc with ⟨-, rfl⟩ | ⟨-, hc⟩
    · exact hopened
    · exact h.opened key' c hc
  · intro key₁ key₂ c h₁ h₂
    rcases hcases h₁ with ⟨hk₁, hc₁⟩ | ⟨-, h₁⟩ <;> rcases hcases h₂ with ⟨hk₂, hc₂⟩ | ⟨-, h₂⟩
    · rw [hk₁, hk₂]
    · exact absurd (hc₁ ▸ h₂) (hpool key₂)
    · exact absurd (hc₂ ▸ h₁) (hpool key₁)
    · exact h.single key₁ key₂ c h₁ h₂
  · intro hrun key' c hc
    rcases hcases hc with ⟨-, rfl⟩ | ⟨-, hc⟩
    · exact hclosed
    · exact h.live (hstage hrun) key' c hc
  · intro c hc
    obtain ⟨hc, hne⟩ := hdialed c hc
    obtain ⟨ho, hn, hp, hr⟩ := h.fresh c hc
    refine ⟨ho, hn, fun key' hc' => ?_, fun key' hc' => ?_⟩
    · rcases hcases hc' with ⟨-, hc'⟩ | ⟨-, hc'⟩
      · exact hne hc'
      · exact hp key' hc'
    · rcases Multiset.mem_cons.1 hc' with hc' | hc'
      · exact hne (congrArg Prod.snd hc')
      · exact hr key' hc'
  · -- The new connection gets its one receive, and the others keep theirs.
    refine h.armed.imp (fun ha key' c hc => ?_) hended
    rcases hcases hc with ⟨rfl, rfl⟩ | ⟨hne, hc⟩
    · rw [Multiset.count_cons_self, Multiset.count_eq_zero_of_notMem (hrecv key')]
    · rw [Multiset.count_cons_of_ne (by simp [hne]), ha key' c hc]
  · intro key' c hc
    rcases Multiset.mem_cons.1 hc with hc | hc
    · cases hc
      exact hopened
    · exact h.started key' c hc
  · intro key' c hc
    dsimp only
    rw [Table.lookup_insert_eq]
    rcases Multiset.mem_cons.1 hc with hc | hc
    · cases hc
      exact .inl (if_pos rfl)
    · -- The key was free, so no receive of another connection is under it.
      refine (h.stale key' c hc).imp_left fun hp => ?_
      rw [if_neg, hp]
      rintro rfl
      rw [hkey] at hp
      cases hp

/-- A connection leaves the pool, closed. -/
theorem Wired.erase {r : RelayPool} (h : r.Wired) {key : RelayKey} {conn : RelayConn}
    (hkey : r.pool.lookup key = some conn) (keys : Table String RelayKey) :
    Wired { r with
      pool := r.pool.erase key
      keys := keys
      closedConns := conn :: r.closedConns } := by
  have hcases : ∀ {key' c}, (r.pool.erase key).lookup key' = some c →
      key' ≠ key ∧ r.pool.lookup key' = some c :=
    Table.lookup_erase_some.1
  refine { h with
    opened := fun key' c hc => h.opened key' c (hcases hc).2,
    single := fun key₁ key₂ c h₁ h₂ => h.single key₁ key₂ c (hcases h₁).2 (hcases h₂).2,
    closed := ?_, live := ?_, fresh := ?_, armed := ?_, stale := ?_ }
  · intro c hc
    rcases List.mem_cons.1 hc with rfl | hc
    · exact h.opened key c hkey
    · exact h.closed c hc
  · intro hrun key' c hc hmem
    obtain ⟨hne, hp⟩ := hcases hc
    rcases List.mem_cons.1 hmem with rfl | hmem
    · -- The connection that is closed was under this key only.
      exact hne (h.single key' key c hp hkey)
    · exact h.live hrun key' c hp hmem
  · intro c hc
    obtain ⟨hopened, hclosed, hpool, hrecv⟩ := h.fresh c hc
    refine ⟨hopened, ?_, fun key' hc' => hpool key' (hcases hc').2, hrecv⟩
    rw [List.mem_cons, not_or]
    refine ⟨?_, hclosed⟩
    rintro rfl
    exact hpool key hkey
  · exact h.armed.imp_left fun ha key' c hc => ha key' c (hcases hc).2
  · intro key' c hc
    dsimp only
    rw [Table.lookup_erase_eq]
    rcases h.stale key' c hc with hp | hmem
    · split <;> rename_i heq
      · rw [heq, hkey] at hp
        exact .inr (Option.some.inj hp ▸ List.mem_cons_self)
      · exact .inl hp
    · exact .inr (List.mem_cons_of_mem _ hmem)

/-- Another connection is opened. -/
theorem Wired.grow {r : RelayPool} (h : r.Wired) : Wired { r with opened := r.opened + 1 } :=
  { h with
    opened := fun key conn hc => Nat.lt_succ_of_lt (h.opened key conn hc)
    closed := fun conn hc => Nat.lt_succ_of_lt (h.closed conn hc)
    fresh := fun conn hc => ⟨Nat.lt_succ_of_lt (h.fresh conn hc).1, (h.fresh conn hc).2⟩
    started := fun key conn hc => Nat.lt_succ_of_lt (h.started key conn hc) }

/-- A receive of a connection that has left the pool resolves. -/
theorem Wired.take {r : RelayPool} (h : r.Wired) {key : RelayKey} {conn : RelayConn}
    (hkey : r.pool.lookup key ≠ some conn) :
    Wired { r with recvs := r.recvs.erase (key, conn) } := by
  refine { h with fresh := ?_, armed := ?_, started := ?_, stale := ?_ }
  · intro c hc
    obtain ⟨hopened, hclosed, hpool, hrecv⟩ := h.fresh c hc
    exact ⟨hopened, hclosed, hpool, fun key' hmem => hrecv key' (Multiset.mem_of_mem_erase hmem)⟩
  · refine h.armed.imp_left fun ha key' c hc => ?_
    rw [Multiset.count_erase_of_ne, ha key' c hc]
    rintro heq
    cases heq
    exact hkey hc
  · exact fun key' c hc => h.started key' c (Multiset.mem_of_mem_erase hc)
  · exact fun key' c hc => h.stale key' c (Multiset.mem_of_mem_erase hc)

/-- Every step keeps the invariant. -/
theorem Wired.step {r r' : RelayPool} (hi : r.Inv) (h : r.Wired) (hst : Step r r') : r'.Wired := by
  cases hst with
  | register =>
    -- Both the key and the connection are new.
    have hkey : r.pool.lookup r.nextKey = none := by
      rw [Option.eq_none_iff_forall_ne_some]
      exact fun conn hc => (hi.issued r.nextKey conn hc).ne rfl
    obtain ⟨hpool, hclosed, hrecv⟩ := h.new
    have hdialed : ∀ c, r.stage = .dialed c → r.stage = .dialed c ∧ c ≠ ⟨r.opened⟩ := by
      refine fun c hc => ⟨hc, ?_⟩
      rintro rfl
      exact (h.fresh _ hc).1.ne rfl
    exact { h.grow.insert hkey (Nat.lt_succ_self _) hpool hclosed hrecv id id hdialed with }
  | retireHome hc => exact h.erase hc r.keys
  | retire _ hc => exact h.erase hc _
  | take hne => exact h.take hne
  | dial hstage =>
    -- The connection waits for the redial to end, and is nowhere yet.
    obtain ⟨hpool, hclosed, hrecv⟩ := h.new
    refine { h.grow with live := ?_, fresh := ?_, armed := ?_ }
    · exact fun _ => h.live (by rw [hstage]; rfl)
    · intro conn hc
      cases hc
      exact ⟨Nat.lt_succ_self _, hclosed, hpool, hrecv⟩
    · refine .inl (h.armed.resolve_right ?_)
      rw [hstage]
      nofun
  | @reoccupy conn hstage _ hhome =>
    obtain ⟨hopened, hclosed, hpool, hrecv⟩ := h.fresh conn hstage
    refine h.insert hhome hopened hpool hclosed hrecv ?_ ?_ nofun
    · rw [hstage]
      exact fun _ => rfl
    · rw [hstage]
      nofun
  | @drop conn hstage =>
    -- The result of the redial is closed without having been in the pool.
    obtain ⟨hopened, -, hpool, -⟩ := h.fresh conn hstage
    refine { h with closed := ?_, live := ?_, fresh := nofun, armed := ?_, stale := ?_ }
    · intro c hc
      rcases List.mem_cons.1 hc with rfl | hc
      · exact hopened
      · exact h.closed c hc
    · intro _ key c hc hmem
      rcases List.mem_cons.1 hmem with rfl | hmem
      · exact hpool key hc
      · exact h.live (by rw [hstage]; rfl) key c hc hmem
    · refine .inl (h.armed.resolve_right ?_)
      rw [hstage]
      nofun
    · exact fun key c hc => (h.stale key c hc).imp_right (List.mem_cons_of_mem _)
  | tear hstage =>
    -- The connections stay in the pool, closed, and keep their receives.
    refine { h with closed := ?_, live := nofun, fresh := nofun, armed := ?_, stale := ?_ }
    · intro c hc
      rcases List.mem_append.1 hc with hc | hc
      · obtain ⟨key, hc⟩ := Table.mem_values.1 (List.mem_reverse.1 hc)
        exact h.opened key c hc
      · exact h.closed c hc
    · refine .inl (h.armed.resolve_right ?_)
      rw [hstage]
      nofun
    · exact fun key c hc => (h.stale key c hc).imp_right (List.mem_append_right _)
  | settle _ hle =>
    exact { h with
      live := nofun, fresh := nofun, armed := .inr rfl
      started := fun key c hc => h.started key c (Multiset.mem_of_le hle hc)
      stale := fun key c hc => h.stale key c (Multiset.mem_of_le hle hc) }
  | _ => exact { h with }

/-- The invariant holds in every reachable state of the machine. -/
theorem Wired.reachable {r : RelayPool} (hr : machine.Reachable r) : r.Wired := by
  refine hr.invariant ?_ fun _ _ hr hst hi => Wired.step (Inv.reachable hr) hi hst
  rintro _ ⟨url, rfl⟩
  have hpool : ∀ {key conn}, (AList.insert homeRelay ⟨0⟩ ∅ : Table RelayKey RelayConn).lookup key =
      some conn → key = homeRelay ∧ conn = ⟨0⟩ := Table.lookup_singleton.1
  have hrecv : ∀ {key : RelayKey} {conn : RelayConn},
      (key, conn) ∈ ({(homeRelay, ⟨0⟩)} : Multiset (RelayKey × RelayConn)) →
        key = homeRelay ∧ conn = ⟨0⟩ := by
    intro key conn hc
    simpa using hc
  refine ⟨?_, ?_, nofun, fun _ _ _ _ => List.not_mem_nil, nofun, .inl ?_, ?_, ?_⟩
  · rintro key conn hc
    obtain ⟨-, rfl⟩ := hpool hc
    exact Nat.zero_lt_one
  · exact fun key key' conn hc hc' => (hpool hc).1.trans (hpool hc').1.symm
  · intro key conn hc
    obtain ⟨rfl, rfl⟩ := hpool hc
    exact Multiset.count_singleton_self _
  · intro key conn hc
    obtain ⟨-, rfl⟩ := hrecv hc
    exact Nat.zero_lt_one
  · intro key conn hc
    obtain ⟨rfl, rfl⟩ := hrecv hc
    exact .inl (AList.lookup_insert _)

end RelayPool

/-! ## The endpoint refines the machine -/

open State RelayPool

/-- In its select, the pump loops. -/
theorem PumpPc.stage_of_inSelect {pc : PumpPc} (h : pc.inSelect = true) : pc.stage = .looping := by
  cases pc <;> first | rfl | cases h

namespace Sys

variable {s : Sys}

/-- The pump moves on, in its stage. -/
theorem goto_relays {pc : PumpPc} (h : pc.stage = s.pump.pc.stage) :
    (s.goto pc).relays = s.relays := by
  rw [goto, relays, h]
  rfl

/-- A failure of a home connection. -/
theorem failHome_relays (s : Sys) (conn : RelayConn) (random : Option (UInt8 × UInt8)) :
    machine.Leads s.relays (s.failHome conn random).relays := by
  rcases s.failHome_cases conn random with ⟨-, h⟩ | ⟨hc, h⟩ <;> rw [h]
  · exact .refl
  · exact .single (.retireHome hc)

/-- A failure of a foreign relay that is in the pool, or has left it already. -/
theorem failRelay_relays (hi : s.relays.Inv) {key : RelayKey} (hk : key ≠ homeRelay) :
    machine.Leads s.relays (relays { s with st := s.st.failRelay key }) := by
  rw [failRelay, retireRelay]
  cases hc : s.st.relayPool.lookup key with
  | some conn => exact .single (.retire hk hc)
  | none =>
    -- A foreign key that is not in the pool belongs to no URL.
    have hkeys : Table.retain (fun _ mapped => mapped != key) s.st.relayKeys = s.st.relayKeys := by
      refine Table.retain_eq_self fun url mapped hu => bne_iff_ne.2 ?_
      rintro rfl
      obtain ⟨conn, hp⟩ := hi.pooled url mapped hu hk
      rw [show s.relays.pool.lookup mapped = none from hc] at hp
      cases hp
    refine .of_eq ?_
    simp only [relays, hkeys, Table.erase_of_lookup_none hc]

/-- The liveness verdict on one relay. -/
theorem sweepOne_relays (hi : s.relays.Inv) (verdict : RelayConn → ProbeStep)
    (random : Option (UInt8 × UInt8)) (entry : Sigma fun _ : RelayKey => RelayConn) :
    machine.Leads s.relays (sweepOne verdict random s entry).relays := by
  rw [sweepOne]
  split
  · split <;> rename_i hk
    · exact s.failHome_relays entry.2 random
    · exact failRelay_relays hi hk
  · exact .refl
  · exact .refl

/-- The liveness sweep. -/
theorem sweep_relays (hr : machine.Reachable s.relays) (verdict : RelayConn → ProbeStep)
    (random : Option (UInt8 × UInt8)) :
    machine.Leads s.relays (s.sweep verdict random).relays := by
  rw [sweep]
  generalize s.st.relayPool.entries = l
  induction l generalizing s with
  | nil => exact .refl
  | cons entry l ih =>
    have hone := sweepOne_relays (Inv.reachable hr) verdict random entry
    exact hone.trans (ih (hr.leads hone))

/-- A receive that is taken out is one of the receives. -/
theorem erase_recvs {key : RelayKey} {conn : RelayConn} (h : (key, conn) ∈ s.pump.relayRecvs) :
    s.relays.recvs.erase (key, conn) =
      ↑(s.pump.relayRecvs.erase (key, conn) ++ s.st.newRelays) := by
  have hcons : s.relays.recvs =
      (key, conn) ::ₘ ↑(s.pump.relayRecvs.erase (key, conn) ++ s.st.newRelays) :=
    Multiset.coe_eq_coe.2 ((List.perm_cons_erase h).append_right s.st.newRelays)
  rw [hcons, Multiset.erase_cons_head]

/-- A receive resolves: it is armed again if its connection is in the pool. -/
theorem takeRelayRecv_relays {key : RelayKey} {conn : RelayConn}
    (h : (key, conn) ∈ s.pump.relayRecvs) :
    machine.Leads s.relays (s.takeRelayRecv key conn).relays := by
  rw [takeRelayRecv]
  split <;> rename_i hc
  · have hperm : (s.pump.relayRecvs.erase (key, conn) ++ [(key, conn)]).Perm s.pump.relayRecvs :=
      (List.perm_append_singleton _ _).trans (List.perm_cons_erase h).symm
    refine .of_eq ?_
    simp only [relays, Multiset.coe_eq_coe.2 (hperm.append_right s.st.newRelays)]
  · refine .single_of_eq (@RelayPool.Step.take _ key conn fun hp => hc (beq_iff_eq.2 hp)) ?_
    rw [erase_recvs h, List.append_nil]
    rfl

/-- A receive fails, and with it the connection, if the pool holds it. -/
theorem failReceive_relays {key : RelayKey} {conn : RelayConn}
    (h : (key, conn) ∈ s.pump.relayRecvs) (random : Option (UInt8 × UInt8)) :
    machine.Leads s.relays (failReceive { s with
      pump := { s.pump with relayRecvs := s.pump.relayRecvs.erase (key, conn) } }
      key conn random).relays := by
  have hrecvs := erase_recvs h
  have hgone : (s.st.relayPool.erase key).lookup key ≠ some conn := by
    rw [AList.lookup_erase]
    nofun
  rw [failReceive]
  split <;> rename_i hc
  · refine .single_of_eq (@RelayPool.Step.take _ key conn ?_) ?_
    · simpa [isPoolCurrent, relays] using hc
    · rw [hrecvs]
      rfl
  · have hc' : s.st.relayPool.lookup key = some conn := by simpa [isPoolCurrent] using hc
    split <;> rename_i hk
    · subst hk
      rcases failHome_cases { s with
        pump := { s.pump with relayRecvs := s.pump.relayRecvs.erase (homeRelay, conn) } }
        conn random with ⟨hne, -⟩ | ⟨-, he⟩
      · exact absurd hc' hne
      · -- The receive is taken after its connection has left the pool.
        refine .head (.retireHome hc') (System.Leads.single_of_eq (.take hgone) ?_)
        rw [he]
        simp only [hrecvs]
        rfl
    · refine .head (.retire hk hc') (System.Leads.single_of_eq (.take hgone) ?_)
      rw [failRelay, retireRelay]
      simp only [hc', RelayPool.retire, hrecvs]
      rfl

/-- A signal is no matter of the relays. -/
theorem handleSignal_relays (s : Sys) (via : RelayKey) (source : EndpointId) (payload : Bytes) :
    (s.handleSignal via source payload).relays = s.relays := by
  rw [handleSignal_frame]
  rfl

end Sys

/-- A step of the pump is a run of the machine. -/
theorem PumpStep.relays {s s' : Sys} (hs : endpoint.Reachable s)
    (hr : machine.Reachable s.relays) (h : PumpStep s s') :
    machine.Leads s.relays s'.relays := by
  have hselect := @PumpPc.stage_of_inSelect s.pump.pc
  cases h with
  | drain hpc hd =>
    refine .of_eq ?_
    rw [(drain_polls hd).woken]
    simp only [Sys.relays, hpc, PumpPc.stage]
  | relayEmpty hpc | relaySend hpc | relaySent hpc | udpEmpty hpc | udpSent hpc
  | channelEmpty hpc | channelSent hpc | leave hpc | stay hpc | suspend hpc =>
    rw [Sys.goto_relays (by rw [hpc]; rfl)]
    exact .refl
  | relayLost => exact .refl
  | udpSend hpc | channelSend hpc =>
    rw [Sys.goto_relays (by rw [hpc]; split <;> rfl)]
    exact .refl
  | relaySendFailed hpc =>
    split
    · rw [Sys.goto_relays]
      · exact s.failHome_relays _ _
      · rw [s.failHome_fails, hpc]
        rfl
    · rw [Sys.goto_relays (by rw [hpc]; rfl)]
      exact .refl
  | arm hpc =>
    rw [Sys.foldl_spawnUpgrade_frame]
    refine .of_eq ?_
    simp only [Sys.relays, hpc, List.append_nil]
    rfl
  | relaySignal hsel _ hrecv =>
    rw [Sys.goto_relays, Sys.handleSignal_relays]
    · exact Sys.takeRelayRecv_relays hrecv
    · rw [Sys.handleSignal_frame]
      exact (hselect hsel).symm
  | relayDatagram hsel _ hrecv _ hd =>
    rw [Sys.goto_relays (by exact (hselect hsel).symm), handleRelayDatagram_frame hd]
    exact Sys.takeRelayRecv_relays hrecv
  | relayFailed hsel _ hrecv =>
    rw [Sys.goto_relays]
    · exact Sys.failReceive_relays hrecv _
    · rw [Sys.failReceive_fails]
      exact (hselect hsel).symm
  | udpReceived hsel _ _ hd =>
    rw [Sys.goto_relays (by exact (hselect hsel).symm), handleDatagram_frame hd]
    exact .refl
  | udpFailed hsel | channelText hsel | kicked hsel =>
    rw [Sys.goto_relays (by exact (hselect hsel).symm)]
    exact .refl
  | channelDatagram hsel _ _ hd =>
    rw [Sys.goto_relays (by exact (hselect hsel).symm)]
    rw [handleChannelDatagram_frame hd]
    exact .refl
  | channelFailed hsel =>
    rw [Sys.goto_relays (by exact (hselect hsel).symm), retireChannel_frame]
    exact .refl
  | redialOpened hsel => exact .single (.dial (hselect hsel))
  | @redialTaken conn hpc hopen =>
    -- The home slot is empty while the result of a redial is at hand.
    have hi := HomeSlot.Inv.reachable (homeSlot_simulation.reachable hs)
    have hempty : s.st.relayPool.lookup homeRelay = none := by
      rw [Option.eq_none_iff_forall_ne_some]
      intro c hc
      have hdialed : s.pump.pc.dialed = none := (hi.filled c hc).2
      rw [hpc] at hdialed
      cases hdialed
    have hstage : s.relays.stage = .dialed conn := by rw [Sys.relays, hpc]; rfl
    refine .single_of_eq (.reoccupy hstage hopen hempty) ?_
    have hperm : (s.pump.relayRecvs ++ [(homeRelay, conn)] ++ s.st.newRelays).Perm
        ((homeRelay, conn) :: (s.pump.relayRecvs ++ s.st.newRelays)) :=
      (List.perm_append_singleton _ _).append_right _
    simp only [Sys.relays, wakeWaiters, Multiset.coe_eq_coe.2 hperm]
    rfl
  | redialDropped hpc hclosed =>
    refine .single_of_eq (.drop ?_ hclosed) rfl
    rw [Sys.relays, hpc]
    rfl
  | redialFailed hsel =>
    refine .of_eq ?_
    rw [Sys.failRedial]
    split <;> rw [Sys.goto_relays (by exact (hselect hsel).symm)] <;> rfl
  | @tick verdict random hsel =>
    rw [Sys.goto_relays]
    · have hr' : machine.Reachable (Sys.relays { s with
          pump := { s.pump with forceWake := true } }) := hr
      exact Sys.sweep_relays hr' verdict random
    · rw [Sys.sweep_fails]
      exact (hselect hsel).symm
  | closeRelays hpc =>
    rw [foldl_closeRelay]
    refine .single (.tear ?_)
    rw [Sys.relays, hpc]
    rfl
  | closeWires hpc =>
    rw [foldl_closeWire, Sys.goto_relays (by rw [hpc]; rfl)]
    exact .refl
  | settled hpc =>
    have hle : Multiset.ofList ([] ++ s.st.newRelays) ≤ s.relays.recvs :=
      Multiset.coe_le.2 (List.sublist_append_right _ _).subperm
    refine .single (.settle ?_ hle)
    rw [Sys.relays, hpc]
    rfl

section Calls

variable {connects : Table TaskId ConnectTask} {tid : TaskId} {task : ConnectTask}

/-- A call in another phase dials nothing. -/
theorem ConnectTask.dials_eq_none {phase : ConnectPhase} (hp : task.phase = phase)
    (h : ∀ target, phase ≠ .opening target) : task.dials = none := by
  rw [dials, hp]
  split
  · exact absurd rfl (h _)
  · rfl

/-- A call in the phase of opening dials its URL. -/
theorem ConnectTask.dials_eq_some {target : Target} {url : String}
    (hphase : task.phase = .opening target) (hurl : target.url task.plan = some url) :
    task.dials = some (normalizeRelayUrl url) := by
  rw [dials, hphase]
  dsimp only
  rw [hurl, Option.map_some]

/-- What is dialed after one call has changed. -/
theorem dialsOf_insert : dialsOf (connects.insert tid task) =
    Function.update (dialsOf connects) tid task.dials := by
  funext tid'
  rw [dialsOf, Table.lookup_insert_eq, Function.update_apply]
  split <;> rfl

/-- What is dialed after one call has ended. -/
theorem dialsOf_erase :
    dialsOf (connects.erase tid) = Function.update (dialsOf connects) tid none := by
  funext tid'
  rw [dialsOf, Table.lookup_erase_eq, Function.update_apply]
  split <;> rfl

/-- What a call dials. -/
theorem dialsOf_eq (h : connects.lookup tid = some task) : dialsOf connects tid = task.dials := by
  rw [dialsOf, h, Option.bind_some]

/-- A call that dials nothing goes on, to dial nothing. -/
theorem dialsOf_insert_eq (hd : dialsOf connects tid = none) (h : task.dials = none) :
    dialsOf (connects.insert tid task) = dialsOf connects := by
  rw [dialsOf_insert, h, ← hd, Function.update_eq_self]

/-- A call that dials nothing ends. -/
theorem dialsOf_erase_eq (hd : dialsOf connects tid = none) :
    dialsOf (connects.erase tid) = dialsOf connects := by
  rw [dialsOf_erase, ← hd, Function.update_eq_self]

end Calls

/-- What a call dials in the phase `phase`, unless it is that of opening. -/
theorem dialsOf_eq_none {connects : Table TaskId ConnectTask} {tid : TaskId} {task : ConnectTask}
    {phase : ConnectPhase} (hc : connects.lookup tid = some task) (hp : task.phase = phase)
    (h : ∀ target, phase ≠ .opening target) : dialsOf connects tid = none := by
  rw [dialsOf_eq hc, ConnectTask.dials_eq_none hp h]

/-- A call that dials nothing goes on, to dial nothing. -/
theorem Sys.relays_insert {s : Sys} {tid : TaskId} {task : ConnectTask} {phase : ConnectPhase}
    (hd : dialsOf s.connects tid = none) (h : ∀ target, phase ≠ .opening target)
    (running : Option TaskId) :
    Sys.relays { s with
      connects := s.connects.insert tid { task with phase := phase }
      running := running } = s.relays := by
  have hdials : ConnectTask.dials { task with phase := phase } = none :=
    ConnectTask.dials_eq_none rfl h
  simp only [relays, dialsOf_insert_eq hd hdials]

/-- A step of a `connect` call is a run of the machine. -/
theorem ConnectStep.relays {s s' : Sys} (h : ConnectStep s s') :
    machine.Leads s.relays s'.relays := by
  have hnext := fun target key target' => Target.next_ne_opening target target' key
  cases h with
  | refused => exact .refl
  | @call tid addr peer _ hc hpeer =>
    have hd : dialsOf s.connects tid = none := by rw [dialsOf, hc]; rfl
    exact .of_eq (@Sys.relays_insert s tid ⟨addr, peer, _, _, hpeer⟩ _ hd (by simp) _)
  | skip _ hc hp =>
    exact .of_eq (Sys.relays_insert (dialsOf_eq_none hc hp (by simp)) (Target.skip_ne_opening _) _)
  | found _ hc hp _ he =>
    rcases ensureRelay_cases he with ⟨_, -, rfl, -⟩ | ⟨-, h | h | h⟩
    · exact .of_eq (Sys.relays_insert (dialsOf_eq_none hc hp (by simp)) (hnext _ _) _)
    all_goals cases h.1
  | closed _ hc hp _ he =>
    rcases ensureRelay_cases he with ⟨_, h, -⟩ | ⟨-, ⟨-, rfl, -⟩ | h | h⟩
    · cases h
    · exact .of_eq (Sys.relays_insert (dialsOf_eq_none hc hp (by simp)) (by simp) _)
    all_goals cases h.1
  | shared _ hc hp _ he =>
    rcases ensureRelay_cases he with ⟨_, h, -⟩ | ⟨-, h | ⟨-, rfl, -⟩ | h⟩
    · cases h
    · cases h.1
    · exact .of_eq (Sys.relays_insert (dialsOf_eq_none hc hp (by simp)) (by simp) none)
    · cases h.1
  | @claimed tid task target url st _ hc hp hurl he =>
    rcases ensureRelay_cases he with ⟨_, h, -⟩ | ⟨hk, h | h | ⟨-, -, ho, rfl⟩⟩
    · cases h
    · cases h.1
    · cases h.1
    · refine .single_of_eq (.claim (dialsOf_eq_none hc hp (by simp)) hk ho) ?_
      have hdials : ConnectTask.dials { task with phase := .opening target } =
          some (normalizeRelayUrl url) := ConnectTask.dials_eq_some rfl hurl
      simp only [Sys.relays, Sys.pause, dialsOf_insert, hdials]
  | @opened tid task target url st key _ hc hp hurl hreg =>
    obtain ⟨-, rfl, rfl⟩ := registerRelay_eq hreg
    have hd := (dialsOf_eq hc).trans (ConnectTask.dials_eq_some hp hurl)
    refine .single_of_eq (.register hd) ?_
    have hdials : ConnectTask.dials { task with phase := target.next s.st.nextRelayKey } = none :=
      ConnectTask.dials_eq_none rfl (hnext _ _)
    have hperm := List.perm_append_singleton (s.st.nextRelayKey, RelayConn.mk s.relayConns)
      (s.pump.relayRecvs ++ s.st.newRelays)
    simp only [Sys.relays, Sys.proceed, kickPump, releaseClaim, wakeWaiters, dialsOf_insert, hdials,
      ← List.append_assoc, Multiset.coe_eq_coe.2 hperm]
    rfl
  | @openFailed tid task target url err _ hc hp hurl =>
    have hd := (dialsOf_eq hc).trans (ConnectTask.dials_eq_some hp hurl)
    -- A failed dial gives its claim back.
    refine .single_of_eq (.release hd) ?_
    simp only [Sys.relays, Sys.pause, releaseClaim, wakeWaiters, dialsOf_insert]
    rfl
  | woken _ hc hp =>
    exact .of_eq (Sys.relays_insert (dialsOf_eq_none hc hp (by simp)) (hnext _ _) _)
  | wokenFailed _ hc hp | tlsFailed _ hc hp | dialClosed _ hc hp =>
    exact .of_eq (Sys.relays_insert (dialsOf_eq_none hc hp (by simp)) (by simp) _)
  | dialFailed _ hc hp _ ha =>
    rw [dialAddr_frame ha]
    exact .of_eq (Sys.relays_insert (dialsOf_eq_none hc hp (by simp)) (by simp) none)
  | dialed _ hc hp _ ha hd =>
    obtain ⟨s₁, _, h₁, rfl⟩ := dialed_eq hd
    obtain ⟨-, -, -, rfl⟩ := insertConn_eq h₁
    rw [dialAddr_frame ha]
    exact .of_eq (Sys.relays_insert (dialsOf_eq_none hc hp (by simp)) (by simp) none)
  | connected _ hc hp =>
    exact .of_eq (Sys.relays_insert (dialsOf_eq_none hc hp (by simp)) (by simp) none)
  | failed _ hc hp =>
    rcases s.st.closeConnection_cases _ _ _ _ with ⟨h, -⟩ | ⟨_, -, -, -, h⟩ <;>
      rw [dropDialGuard, h] <;>
      exact .of_eq (Sys.relays_insert (dialsOf_eq_none hc hp (by simp)) (by simp) none)
  | cancelOpening _ hc hp hurl =>
    have hd := (dialsOf_eq hc).trans (ConnectTask.dials_eq_some hp hurl)
    refine .single_of_eq (.release hd) ?_
    simp only [Sys.relays, releaseClaim, wakeWaiters, dialsOf_erase]
    rfl
  | cancelWaiting _ hc hp =>
    refine .of_eq ?_
    simp only [Sys.relays, dialsOf_erase_eq (dialsOf_eq_none hc hp (by simp))]
  | cancelParked _ hc hp =>
    refine .of_eq ?_
    have hdials := dialsOf_erase_eq (dialsOf_eq_none hc hp (by simp))
    rcases s.st.closeConnection_cases _ _ _ _ with ⟨h, -⟩ | ⟨_, -, -, -, h⟩
    · rw [dropDialGuard, h]
      simp only [Sys.relays, hdials]
    · rw [dropDialGuard, h]
      simp only [Sys.relays, hdials, kickPump]

/-- A step of a signaling session leaves the relays alone. -/
theorem SessionStep.relays {s s' : Sys} (h : SessionStep s s') : s'.relays = s.relays := by
  cases h with
  | begin _ _ _ hb =>
    obtain ⟨-, rfl⟩ := beginSignaling_eq hb
    rfl
  | receive =>
    rw [nextSignalCheck_frame]
    rfl
  | upgraded _ _ _ _ hr | answered _ _ _ _ hr =>
    rw [registerChannel_frame hr]
    rfl
  | _ => rfl

/-- A step of the endpoint is a run of the machine. -/
theorem Step.relays {s s' : Sys} (hs : endpoint.Reachable s) (hr : machine.Reachable s.relays)
    (h : Step s s') : machine.Leads s.relays s'.relays := by
  rcases h.cases with h | h | h | h
  · exact h.relays hs hr
  · exact h.relays
  · exact .of_eq h.relays
  · rw [h.frame]
    rcases h.closes with hc | hc <;> rw [hc]
    · exact .refl
    · exact .single .close

/-- The relays of the endpoint follow the machine. -/
theorem relays_simulation : Simulation endpoint machine Sys.relays where
  init := by
    rintro _ ⟨config, webrtc, now, st, key, hreg, rfl⟩
    obtain ⟨-, -, rfl⟩ := registerRelay_eq hreg
    exact ⟨normalizeRelayUrl config.homeUrl, rfl⟩
  step := fun _ _ hs hr hst => Step.relays hs hr hst

/-! ## Opens are shared, and the pool is coherent -/

/-- Relay opens are shared, and the pool is coherent. -/
structure RelaysShared (s : Sys) : Prop where
  /-- The URLs being opened are those being dialed, each by one call. -/
  dialing : ∀ url, url ∈ s.st.relayOpening ↔ ∃ tid raw, s.Dialing tid raw ∧
    normalizeRelayUrl raw = url
  single : ∀ tid tid' raw raw', s.Dialing tid raw → s.Dialing tid' raw' →
    normalizeRelayUrl raw = normalizeRelayUrl raw' → tid = tid'
  /-- The URLs have different keys. -/
  injective : ∀ url url' key, s.st.relayKeys.lookup url = some key →
    s.st.relayKeys.lookup url' = some key → url = url'
  /-- A foreign key that a URL has is in the pool, and one in the pool is that of one
      URL. -/
  pooled : ∀ url key, s.st.relayKeys.lookup url = some key → key ≠ homeRelay →
    ∃ conn, s.st.relayPool.lookup key = some conn
  mapped : ∀ key conn, s.st.relayPool.lookup key = some conn → key ≠ homeRelay →
    ∃! url, s.st.relayKeys.lookup url = some key
  /-- A foreign key that a call gets is in the pool, with a connection that is not
      closed before the teardown. -/
  returned : ∀ s', Step s s' → ∀ tid url key, s.Returns s' tid url key → key ≠ homeRelay →
    ∃ conn, s'.st.relayPool.lookup key = some conn ∧
      (s'.pump.pc.stage.running = true → conn ∉ s'.st.closedRelays)
  /-- A dial goes on or ends: with a key, or such that the URL can be opened. -/
  ended : ∀ s', Step s s' → ∀ tid url, s.Dialing tid url →
    s'.Dialing tid url ∨ (∃ key, s.Returns s' tid url key) ∨ s'.Openable url

/-- What the calls dial is what they are dialing. -/
theorem Sys.dialsOf_iff {s : Sys} {tid : TaskId} {url : String} :
    dialsOf s.connects tid = some url ↔ ∃ raw, s.Dialing tid raw ∧ normalizeRelayUrl raw = url := by
  constructor
  · intro h
    obtain ⟨task, hl, hd⟩ := Option.bind_eq_some_iff.1 h
    rw [ConnectTask.dials] at hd
    split at hd <;> rename_i hp
    · obtain ⟨raw, hurl, rfl⟩ := Option.map_eq_some_iff.1 hd
      exact ⟨raw, ⟨task, _, hl, hp, hurl⟩, rfl⟩
    · cases hd
  · rintro ⟨raw, ⟨task, target, hl, hp, hurl⟩, rfl⟩
    rw [dialsOf_eq hl, ConnectTask.dials_eq_some hp hurl]

/-- A URL that is neither opened nor mapped can be opened. -/
theorem Sys.openable {s : Sys} {url : String} (ho : normalizeRelayUrl url ∉ s.st.relayOpening)
    (hk : s.st.relayKeys.lookup (normalizeRelayUrl url) = none) : s.Openable url := by
  refine ⟨ho, fun hopen => ⟨{ s.st with
    relayOpening := normalizeRelayUrl url :: s.st.relayOpening }, ?_⟩⟩
  rw [State.ensureRelay, hk]
  dsimp only
  rw [hopen, if_neg Bool.false_ne_true, if_neg ho]

/-- In every reachable state, relay opens are shared and the pool is coherent. -/
theorem relaysShared_reachable {s : Sys} (hs : endpoint.Reachable s) : RelaysShared s := by
  have hi := Inv.reachable (relays_simulation.reachable hs)
  refine ⟨fun url => ?_, fun tid tid' raw raw' hd hd' heq => ?_, hi.injective, hi.pooled, ?_, ?_, ?_⟩
  · exact (hi.dialing url).trans (exists_congr fun tid => Sys.dialsOf_iff)
  · exact hi.single tid tid' _ (Sys.dialsOf_iff.2 ⟨raw, hd, heq⟩) (Sys.dialsOf_iff.2 ⟨raw', hd', rfl⟩)
  · intro key conn hc hk
    obtain ⟨url, hu⟩ := hi.mapped key conn hc hk
    exact ⟨url, hu, fun url' hu' => hi.injective url' url key hu' hu⟩
  · intro s' hst tid url key hr hk
    have hr' := relays_simulation.reachable (hs.step hst)
    obtain ⟨conn, hc⟩ := (Inv.reachable hr').pooled _ key (hst.returns hr) hk
    exact ⟨conn, hc, fun hrun => (Wired.reachable hr').live hrun key conn hc⟩
  · intro s' hst tid url hd
    refine (hst.dialing hd).imp_right (Or.imp_right fun hst' => ?_)
    -- The claim is given back, and a URL that is claimed has no key.
    have hopening : normalizeRelayUrl url ∈ s.relays.opening :=
      (hi.dialing _).2 ⟨tid, Sys.dialsOf_iff.2 ⟨url, hd, rfl⟩⟩
    refine Sys.openable ?_ ?_ <;> rw [hst']
    · exact hi.nodup.not_mem_erase
    · exact hi.unkeyed _ hopening

/-- A call opens a foreign relay. -/
theorem relaysShared_opened : ∃ s s' : Sys,
    (s.st.relayOpening = [normalizeRelayUrl "https://other.example"] ∧ RelaysShared s) ∧
      s'.st.relayPool.lookup 1 = some ⟨1⟩ ∧ RelaysShared s' := by
  have hidle := idle_reachable (.relayOnly "https://home.example") false 0
  have hcall := hidle.step (.connect (@ConnectStep.call _ 0
    ⟨List.replicate 32 7, [.relay "https://other.example"]⟩ (Vector.replicate 32 7) rfl rfl rfl))
  have hclaimed := hcall.step (.connect (@ConnectStep.claimed _ 0 _ .dial
    "https://other.example" _ rfl rfl rfl rfl rfl))
  have hopened := hclaimed.step (.connect (@ConnectStep.opened _ 0 _ .dial
    "https://other.example" _ 1 rfl rfl rfl rfl rfl))
  exact ⟨_, _, ⟨rfl, relaysShared_reachable hclaimed⟩, rfl, relaysShared_reachable hopened⟩

end IrohEndpoint
