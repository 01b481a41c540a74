import IrohEndpoint.RelayPool

/-!
# Relay URLs

The pool has an entry for a normalized relay URL, without its trailing slashes. The
websocket URL that is dialed is made of the URL as it was given: of its scheme, and
of the host between the first `://` and the next slash (`relayUrl`).

Two URLs that share an entry are dialed alike (`relayUrl_append`): the slashes behind
a URL are behind its host. Where they are part of its only `://`, there is no host,
and neither URL can be dialed. `relayUrl_normalized` says so, and what is dialed. So a call
that waits for the dial of another one waits for what it would dial itself
(`relayOpening_congr`).
-/

namespace IrohEndpoint

/-- The URL path serving the relay protocol. -/
def relayPath : String := "/relay"

/-- `str::split_once`: what is before the first occurrence of `sep`, and after it. -/
def splitOnce (sep : List Char) (text : List Char) : Option (List Char × List Char) :=
  if sep <+: text then some ([], text.drop sep.length)
  else
    match text with
    | [] => none
    | c :: rest => (splitOnce sep rest).map fun (before, after) => (c :: before, after)

/-- `char::escape_debug`, for a character in double quotes. -/
def escapeDebug (unprintable : Char → Bool) (c : Char) : String :=
  match c with
  | '\x00' => "\\0"
  | '\t' => "\\t"
  | '\r' => "\\r"
  | '\n' => "\\n"
  | '"' => "\\\""
  | '\\' => "\\\\"
  | _ =>
    if unprintable c then "\\u\x7b" ++ String.ofList (Nat.toDigits 16 c.toNat) ++ "\x7d"
    else c.toString

/-- `{:?}` of a string. Which characters are printed as they are is told by the tables
    of the standard library. -/
def debugString (unprintable : Char → Bool) (text : String) : String :=
  "\"" ++ String.join (text.toList.map (escapeDebug unprintable)) ++ "\""

/-- What is between the scheme of a URL and the rest. -/
def separator : List Char := "://".toList

/-- The websocket URL for the relay endpoint of `server`: scheme mapped onto `ws` or
    `wss`, path `/relay`. -/
def relayUrl (unprintable : Char → Bool) (server : String) : Except String String :=
  match splitOnce separator server.toList with
  | none => .error ("relay url " ++ debugString unprintable server ++ " has no scheme")
  | some (scheme, rest) =>
    let wsScheme := if scheme = "http".toList ∨ scheme = "ws".toList then "ws" else "wss"
    let host := rest.takeWhile (· ≠ '/')
    if host = [] then .error ("relay url " ++ debugString unprintable server ++ " has no host")
    else .ok (wsScheme ++ "://" ++ String.ofList host ++ relayPath)

/-! ## The normalized URL -/

section Slashes

variable {sep text slashes : List Char}

theorem separator_eq : separator = [':', '/', '/'] := rfl

theorem splitOnce_of_isPrefix (h : sep <+: text) :
    splitOnce sep text = some ([], text.drop sep.length) := by
  rw [splitOnce.eq_def, if_pos h]

theorem splitOnce_cons {c : Char} (h : ¬sep <+: c :: text) :
    splitOnce sep (c :: text) =
      (splitOnce sep text).map fun (before, after) => (c :: before, after) := by
  rw [splitOnce, if_neg h]

/-- There is no `://` in slashes. -/
theorem splitOnce_slashes (hslashes : ∀ c ∈ slashes, c = '/') :
    splitOnce separator slashes = none := by
  induction slashes with
  | nil => rfl
  | cons c slashes ih =>
    obtain ⟨rfl, hrest⟩ := List.forall_mem_cons.1 hslashes
    have hstarts : ¬separator <+: '/' :: slashes := by
      rw [separator_eq, List.cons_prefix_cons]
      exact fun h => absurd h.1 (by decide)
    rw [splitOnce_cons hstarts, ih hrest, Option.map_none]

/-- Slashes that complete a `://` complete a colon, or a colon and a slash. -/
theorem slashes_of_isPrefix {c : Char} (h : separator <+: c :: (text ++ slashes))
    (hstarts : ¬separator <+: c :: text) : ∀ a ∈ text, a = '/' := by
  rw [separator_eq, List.cons_prefix_cons] at h hstarts
  obtain ⟨rfl, h⟩ := h
  match text with
  | [] => exact nofun
  | [a] =>
    have ha := (List.cons_prefix_cons.1 h).1
    exact List.forall_mem_singleton.2 ha.symm
  | a :: b :: text =>
    obtain ⟨ha, h⟩ := List.cons_prefix_cons.1 h
    have hb := (List.cons_prefix_cons.1 h).1
    refine absurd ⟨rfl, ?_⟩ hstarts
    rw [← ha, ← hb]
    exact List.prefix_append ['/', '/'] text

/-- Slashes behind a text are behind what is split off it. If there is no `://` without
    them, then there are only slashes behind it. -/
theorem splitOnce_append (hslashes : ∀ c ∈ slashes, c = '/') :
    splitOnce separator (text ++ slashes) =
        (splitOnce separator text).map (fun (scheme, rest) => (scheme, rest ++ slashes)) ∨
      splitOnce separator text = none ∧ ∃ scheme rest,
        splitOnce separator (text ++ slashes) = some (scheme, rest) ∧ ∀ c ∈ rest, c = '/' := by
  induction text with
  | nil => exact .inl (splitOnce_slashes hslashes)
  | cons c text ih =>
    rw [List.cons_append]
    by_cases h : separator <+: c :: (text ++ slashes)
    · rw [splitOnce_of_isPrefix h]
      by_cases hstarts : separator <+: c :: text
      · -- The separator is in the text.
        left
        rw [splitOnce_of_isPrefix hstarts, Option.map_some, ← List.cons_append,
          List.drop_append_of_le_length hstarts.length_le]
      · -- The slashes complete it.
        right
        have htext := slashes_of_isPrefix h hstarts
        refine ⟨by rw [splitOnce_cons hstarts, splitOnce_slashes htext, Option.map_none],
          [], _, rfl, fun a ha => ?_⟩
        have hmem : a ∈ text ++ slashes := List.mem_of_mem_drop (i := 2) ha
        exact (List.mem_append.1 hmem).elim (htext a) (hslashes a)
    · have hstarts : ¬separator <+: c :: text := fun hp =>
        h (hp.trans (List.prefix_append (c :: text) slashes))
      rw [splitOnce_cons h, splitOnce_cons hstarts]
      rcases ih with ih | ⟨hnone, scheme, rest, hsome, hrest⟩
      · left
        rw [ih, Option.map_map, Option.map_map]
        rfl
      · right
        rw [hnone, hsome]
        exact ⟨rfl, c :: scheme, rest, rfl, hrest⟩

/-- Slashes behind a text do not change what is before the first slash. -/
theorem takeWhile_append_slashes (hslashes : ∀ c ∈ slashes, c = '/') :
    (text ++ slashes).takeWhile (· ≠ '/') = text.takeWhile (· ≠ '/') := by
  induction text with
  | nil =>
    cases slashes with
    | nil => rfl
    | cons c slashes =>
      rw [(List.forall_mem_cons.1 hslashes).1]
      rfl
  | cons c text ih =>
    rw [List.cons_append, List.takeWhile_cons, List.takeWhile_cons, ih]

end Slashes

section Dialed

variable {unprintable : Char → Bool} {server url : String}

/-- The websocket URL of a scheme and what follows it. -/
def websocketUrl (scheme rest : List Char) : String :=
  (if scheme = "http".toList ∨ scheme = "ws".toList then "ws" else "wss") ++ "://" ++
    String.ofList (rest.takeWhile (· ≠ '/')) ++ relayPath

/-- What is dialed: the host behind the first `://`, if there is one. -/
theorem relayUrl_eq_ok_iff :
    relayUrl unprintable server = .ok url ↔
      ∃ scheme rest, splitOnce separator server.toList = some (scheme, rest) ∧
        rest.takeWhile (· ≠ '/') ≠ [] ∧ websocketUrl scheme rest = url := by
  unfold relayUrl
  cases hsplit : splitOnce separator server.toList with
  | none => exact iff_of_false nofun fun ⟨_, _, h, _⟩ => nomatch h
  | some parts =>
    obtain ⟨scheme, rest⟩ := parts
    dsimp only
    split
    · rename_i hhost
      refine iff_of_false nofun ?_
      rintro ⟨_, _, h, hne, -⟩
      cases h
      exact hne hhost
    · rename_i hhost
      constructor
      · intro h
        exact ⟨scheme, rest, rfl, hhost, Except.ok.inj h⟩
      · rintro ⟨_, _, h, -, hurl⟩
        cases h
        exact congrArg Except.ok hurl

/-- Slashes behind a URL change neither whether it can be dialed nor what is dialed. -/
theorem relayUrl_append {slashes : List Char} (hslashes : ∀ c ∈ slashes, c = '/')
    (text : List Char) :
    relayUrl unprintable (String.ofList (text ++ slashes)) = .ok url ↔
      relayUrl unprintable (String.ofList text) = .ok url := by
  rw [relayUrl_eq_ok_iff, relayUrl_eq_ok_iff, String.toList_ofList, String.toList_ofList]
  rcases @splitOnce_append text slashes hslashes with h | ⟨hnone, scheme, rest, hsome, hrest⟩
  · -- The slashes are behind the host.
    rw [h]
    cases splitOnce separator text with
    | none => exact Iff.rfl
    | some parts =>
      obtain ⟨scheme, rest⟩ := parts
      have hhost := @takeWhile_append_slashes rest slashes hslashes
      have hurl : websocketUrl scheme (rest ++ slashes) = websocketUrl scheme rest := by
        rw [websocketUrl, hhost, websocketUrl]
      constructor
      · rintro ⟨_, _, hparts, hne, rfl⟩
        cases hparts
        exact ⟨scheme, rest, rfl, hhost ▸ hne, hurl.symm⟩
      · rintro ⟨_, _, hparts, hne, rfl⟩
        cases hparts
        exact ⟨scheme, rest ++ slashes, rfl, hhost.symm ▸ hne, hurl⟩
  · -- Only slashes are behind the separator: there is no host.
    have hhost : rest.takeWhile (· ≠ '/') = [] :=
      @takeWhile_append_slashes [] rest hrest
    rw [hnone, hsome]
    refine iff_of_false ?_ (fun ⟨_, _, h, _⟩ => nomatch h)
    rintro ⟨_, _, hparts, hne, -⟩
    cases hparts
    exact hne hhost

/-- A URL is its normalized URL, with slashes behind. -/
theorem exists_slashes (server : String) : ∃ slashes : List Char, (∀ c ∈ slashes, c = '/') ∧
    server = String.ofList ((normalizeRelayUrl server).toList ++ slashes) := by
  refine ⟨server.toList.rtakeWhile (· == '/'), fun c hc => ?_, ?_⟩
  · have hslash := @List.mem_rtakeWhile_imp Char (· == '/') server.toList c hc
    exact beq_iff_eq.1 hslash
  · rw [normalizeRelayUrl, String.toList_ofList, List.rdropWhile_append_rtakeWhile,
      String.ofList_toList]

/-- A URL is dialed as its normalized URL is. -/
theorem relayUrl_normalizeRelayUrl :
    relayUrl unprintable (normalizeRelayUrl server) = .ok url ↔
      relayUrl unprintable server = .ok url := by
  obtain ⟨slashes, hslashes, hserver⟩ := exists_slashes server
  have happend : relayUrl unprintable _ = .ok url ↔ relayUrl unprintable _ = .ok url :=
    relayUrl_append hslashes (normalizeRelayUrl server).toList
  rw [← hserver, String.ofList_toList] at happend
  exact happend.symm

/-- URLs with the same normalized URL are dialed alike. -/
theorem relayUrl_congr {other : String}
    (h : normalizeRelayUrl server = normalizeRelayUrl other) :
    relayUrl unprintable server = .ok url ↔ relayUrl unprintable other = .ok url :=
  calc relayUrl unprintable server = .ok url
      ↔ relayUrl unprintable (normalizeRelayUrl server) = .ok url :=
        relayUrl_normalizeRelayUrl.symm
    _ ↔ relayUrl unprintable (normalizeRelayUrl other) = .ok url := by rw [h]
    _ ↔ relayUrl unprintable other = .ok url := relayUrl_normalizeRelayUrl

/-- A call that waits for the dial of another call waits for a dial of its own websocket
    URL. -/
theorem relayOpening_congr {s : Sys} (hs : endpoint.Reachable s)
    (h : normalizeRelayUrl server ∈ s.st.relayOpening) :
    ∃ tid raw, s.Dialing tid raw ∧ ∀ url,
      relayUrl unprintable raw = .ok url ↔ relayUrl unprintable server = .ok url := by
  obtain ⟨tid, raw, hdialing, hraw⟩ := ((relaysShared_reachable hs).dialing _).1 h
  exact ⟨tid, raw, hdialing, fun url => relayUrl_congr hraw⟩

end Dialed

theorem normalizeRelayUrl_idem (server : String) :
    normalizeRelayUrl (normalizeRelayUrl server) = normalizeRelayUrl server := by
  rw [normalizeRelayUrl, normalizeRelayUrl, String.toList_ofList, List.rdropWhile_idempotent]

/-- **An entry of the pool is shared by URLs that are dialed alike.** Two URLs with the same
    normalized URL both fail, or both are dialed at the same websocket URL. Normalizing is
    idempotent. A websocket URL is `ws://` or `wss://`, followed by a host that is not empty
    and has no slash, and the relay path. -/
theorem relayUrl_normalized (unprintable : Char → Bool) (server : String) :
    (∀ other, normalizeRelayUrl server = normalizeRelayUrl other → ∀ url,
      relayUrl unprintable server = .ok url ↔ relayUrl unprintable other = .ok url) ∧
    normalizeRelayUrl (normalizeRelayUrl server) = normalizeRelayUrl server ∧
    ∀ url, relayUrl unprintable server = .ok url → ∃ scheme host,
      (scheme = "ws://" ∨ scheme = "wss://") ∧ host ≠ "" ∧ '/' ∉ host.toList ∧
      url = scheme ++ host ++ relayPath := by
  refine ⟨fun other hother url => relayUrl_congr hother, normalizeRelayUrl_idem server,
    fun url hurl => ?_⟩
  obtain ⟨scheme, rest, -, hhost, rfl⟩ := relayUrl_eq_ok_iff.1 hurl
  refine ⟨_, String.ofList (rest.takeWhile (· ≠ '/')), ?_, ?_, ?_, rfl⟩
  · split
    · exact .inl rfl
    · exact .inr rfl
  · intro hempty
    rw [← @String.ofList_toList "", String.ofList_inj] at hempty
    exact hhost hempty
  · rw [String.toList_ofList]
    intro hslash
    have hne := List.mem_takeWhile_imp hslash
    exact absurd rfl (of_decide_eq_true hne)

end IrohEndpoint
