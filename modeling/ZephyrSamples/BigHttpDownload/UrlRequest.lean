import ZephyrSamples.Sockets.Sendall
import Mathlib.Data.List.Basic

/-!
# The URL and the request of the big download

The URL is taken apart in place: a cursor goes over the buffer twice, and where it stops at the
separator of the part it looks for, that byte is overwritten with a NUL and the part behind it is
pointed to.  So each part ends where the next one begins, and what is sent is made of the strings
that the pointers lead to.
-/

namespace ZephyrSamples
namespace BigHttpDownload

open Sockets

/-- The bytes of a text. -/
def text (s : List Char) : List Byte := s.map fun c => UInt8.ofNat c.toNat

/-- `':'` -/
def colon : Byte := 58

/-- `'/'` -/
def slash : Byte := 47

/-- `"http://"` -/
def httpScheme : List Byte := text ['h', 't', 't', 'p', ':', '/', '/']

/-- `"https://"` -/
def httpsScheme : List Byte := text ['h', 't', 't', 'p', 's', ':', '/', '/']

/-- A string of its own, or the place of one in the buffer of the URL. -/
inductive Pointer where
  | literal (s : List Byte)
  | url (index : Nat)

/-- The buffer of the URL, and the variables that are set from it. -/
structure Parsed where
  url : List Byte
  isTls : Bool
  host : Pointer
  port : Pointer
  uriPath : Pointer

inductive Failure where
  /-- `fatal` ends the program. -/
  | fatal
  /-- An access behind the end of the buffer. -/
  | outside

/-- The C string in a buffer from an index on, if it has an end there. -/
def stringAt (buf : List Byte) (index : Nat) : Option (List Byte) :=
  let rest := buf.drop index
  if 0 ∈ rest then some (rest.takeWhile (· ≠ 0)) else none

/-- The C string that a pointer leads to. -/
def stringOf (url : List Byte) : Pointer → Option (List Byte)
  | .literal s => some s
  | .url index => stringAt url index

/-- `while (*p && ...) p++`, for the bytes from `p` on: where `p` is then. -/
def scan (ends : Byte → Bool) : List Byte → Nat → Except Failure Nat
  | [], _ => .error .outside
  | c :: rest, p => if c ≠ 0 ∧ ends c = false then scan ends rest (p + 1) else .ok p

/-- `*p` -/
def readAt (url : List Byte) (p : Nat) : Except Failure Byte :=
  match url[p]? with
  | none => .error .outside
  | some c => .ok c

/-- The beginning of `main`: the scheme, with the default port and where the host begins. -/
def parseScheme (tls : Bool) (url : List Byte) : Except Failure (Bool × List Byte × Nat) :=
  if httpScheme.isPrefixOf url then .ok (false, text ['8', '0'], 7)
  else if tls && httpsScheme.isPrefixOf url then .ok (true, text ['4', '4', '3'], 8)
  else .error .fatal

/-- Then the host part and the optional port part: the buffer, the port, and where `p` is. -/
def parseHost (port : List Byte) (url : List Byte) (p : Nat) :
    Except Failure (List Byte × Pointer × Nat) := do
  let p ← scan (fun c => c = colon || c = slash) (url.drop p) p
  let c ← readAt url p
  if c = colon then .ok (url.set p 0, .url (p + 1), p + 1) else .ok (url, .literal port, p)

/-- And the path part: the buffer and the path. -/
def parsePath (url : List Byte) (p : Nat) : Except Failure (List Byte × Pointer) := do
  let p ← scan (fun c => c = slash) (url.drop p) p
  let c ← readAt url p
  if c = slash then .ok (url.set p 0, .url (p + 1)) else .ok (url, .literal [])

/-- The part of `main` that parses the URL, with `CONFIG_NET_SOCKETS_SOCKOPT_TLS` or without. -/
def parseUrl (tls : Bool) (url : List Byte) : Except Failure Parsed := do
  let (isTls, port, host) ← parseScheme tls url
  let (url, port, p) ← parseHost port url host
  let (url, uriPath) ← parsePath url p
  return { url, isTls, host := .url host, port, uriPath }

/-- `"GET /"` -/
def get : List Byte := text ['G', 'E', 'T', ' ', '/']

/-- `" HTTP/1.0\r\n"` -/
def version : List Byte := text [' ', 'H', 'T', 'T', 'P', '/', '1', '.', '0', '\r', '\n']

/-- `"Host: "` -/
def hostField : List Byte := text ['H', 'o', 's', 't', ':', ' ']

/-- `"\r\n\r\n"` -/
def headersEnd : List Byte := text ['\r', '\n', '\r', '\n']

/-- What the calls of `send` return, for each call of `sendall`: they accept a byte at least. -/
structure Sends where
  outLens : Nat → List Int
  accepts : ∀ k, ∀ outLen ∈ outLens k, 0 < outLen

/-- The request of `download`: all that is sent, if the pointers lead to strings. -/
def download (m : Parsed) (sends : Sends) : Option (List Byte) := do
  let uriPath ← stringOf m.url m.uriPath
  let host ← stringOf m.url m.host
  return (sendall get (sends.outLens 0)).1 ++
    (sendall uriPath (sends.outLens 1)).1 ++
    (sendall version (sends.outLens 2)).1 ++
    (sendall hostField (sends.outLens 3)).1 ++
    (sendall host (sends.outLens 4)).1 ++
    (sendall headersEnd (sends.outLens 5)).1

/-! ## URLs -/

/-- The parts of a URL. -/
structure Url where
  host : List Byte
  port : Option (List Byte)
  path : Option (List Byte)
  host_bytes : ∀ c ∈ host, c ≠ colon ∧ c ≠ slash ∧ c ≠ 0
  port_bytes : ∀ s ∈ port, ∀ c ∈ s, c ≠ slash ∧ c ≠ 0
  path_bytes : ∀ s ∈ path, ∀ c ∈ s, c ≠ 0

/-- An optional part with its separator. -/
def optional (sep : Byte) : Option (List Byte) → List Byte
  | none => []
  | some s => sep :: s

/-- The buffer that holds the URL. -/
def Url.buffer (u : Url) : List Byte :=
  httpScheme ++ u.host ++ optional colon u.port ++ optional slash u.path ++ [0]

/-- `"GET /" path " HTTP/1.0" CR LF "Host: " host CR LF CR LF` -/
def Url.request (u : Url) : List Byte :=
  get ++ u.path.getD [] ++ version ++ hostField ++ u.host ++ headersEnd

/-! ## Buffers -/

section

variable {s before rest : List Byte} {c : Byte}

theorem scan_append (ends : Byte → Bool) (rest : List Byte) (hs : ∀ c ∈ s, c ≠ 0 ∧ ends c = false)
    (hc : c = 0 ∨ ends c = true) (p : Nat) :
    scan ends (s ++ c :: rest) p = .ok (p + s.length) := by
  induction s generalizing p with
  | nil =>
    have hstop : ¬ (c ≠ 0 ∧ ends c = false) := by
      rintro ⟨hne, hends⟩
      rcases hc with hc | hc
      · exact hne hc
      · exact absurd (hends.symm.trans hc) Bool.false_ne_true
    rw [List.nil_append, scan, if_neg hstop]
    rfl
  | cons b s ih =>
    rw [List.cons_append, scan, if_pos (hs b List.mem_cons_self),
      ih fun x hx => hs x (List.mem_cons_of_mem b hx)]
    show Except.ok (p + 1 + s.length) = Except.ok (p + (s.length + 1))
    rw [Nat.add_right_comm, Nat.add_assoc]

theorem readAt_append : readAt (before ++ c :: rest) before.length = .ok c := by
  simp [readAt]

theorem set_append : (before ++ c :: rest).set before.length 0 = before ++ 0 :: rest := by
  simp

theorem stringAt_append (before rest : List Byte) (hs : ∀ c ∈ s, c ≠ 0) :
    stringAt (before ++ s ++ 0 :: rest) before.length = some s := by
  have hdrop : (before ++ s ++ 0 :: rest).drop before.length = s ++ 0 :: rest := by
    rw [List.append_assoc, List.drop_left]
  have htake : (s ++ 0 :: rest).takeWhile (· ≠ 0) = s := by
    rw [List.takeWhile_append_of_pos fun b hb => decide_eq_true (hs b hb)]
    simp
  have hend : (0 : Byte) ∈ s ++ 0 :: rest := List.mem_append_right s List.mem_cons_self
  rw [stringAt, hdrop]
  simp only [if_pos hend, htake]

/-! ## The parts -/

theorem parseHost_colon (hs : ∀ c ∈ s, c ≠ colon ∧ c ≠ slash ∧ c ≠ 0) (port : List Byte) :
    parseHost port (before ++ s ++ colon :: rest) before.length =
      .ok (before ++ s ++ 0 :: rest, .url ((before ++ s).length + 1),
        (before ++ s).length + 1) := by
  have hscan := scan_append (c := colon) (fun c => c = colon || c = slash) rest
    (fun c hc => ⟨(hs c hc).2.2, by simp [hs c hc]⟩) (Or.inr rfl) before.length
  have hdrop : (before ++ s ++ colon :: rest).drop before.length = s ++ colon :: rest := by
    rw [List.append_assoc, List.drop_left]
  have hlength : before.length + s.length = (before ++ s).length := List.length_append.symm
  rw [parseHost, hdrop, hscan, hlength]
  simp only [bind, Except.bind, readAt_append, set_append, if_true]

theorem parseHost_of_ne (hs : ∀ c ∈ s, c ≠ colon ∧ c ≠ slash ∧ c ≠ 0) (port : List Byte)
    (hc : c = 0 ∨ c = slash) :
    parseHost port (before ++ s ++ c :: rest) before.length =
      .ok (before ++ s ++ c :: rest, .literal port, (before ++ s).length) := by
  have hne : c ≠ colon := by rcases hc with rfl | rfl <;> decide
  have hscan := scan_append (fun c => c = colon || c = slash) rest
    (fun c hc => ⟨(hs c hc).2.2, by simp [hs c hc]⟩) (hc.imp_right fun h => by simp [h])
    before.length
  have hdrop : (before ++ s ++ c :: rest).drop before.length = s ++ c :: rest := by
    rw [List.append_assoc, List.drop_left]
  have hlength : before.length + s.length = (before ++ s).length := List.length_append.symm
  rw [parseHost, hdrop, hscan, hlength]
  simp only [bind, Except.bind, readAt_append, if_neg hne]

/-- What is scanned becomes a string of its own, and the path is what follows. -/
theorem parsePath_spec (hs : ∀ c ∈ s, c ≠ slash ∧ c ≠ 0) {path : Option (List Byte)}
    (hpath : ∀ t ∈ path, ∀ c ∈ t, c ≠ 0) (before : List Byte) :
    ∃ rest uriPath, parsePath (before ++ s ++ (optional slash path ++ [0])) before.length =
        .ok (before ++ s ++ 0 :: rest, uriPath) ∧
      stringOf (before ++ s ++ 0 :: rest) uriPath = some (path.getD []) := by
  have hdrop (c : Byte) (rest : List Byte) :
      (before ++ s ++ c :: rest).drop before.length = s ++ c :: rest := by
    rw [List.append_assoc, List.drop_left]
  have hscan (c : Byte) (rest : List Byte) (hc : c = 0 ∨ c = slash) :=
    scan_append (s := s) (fun c => c = slash) rest
      (fun c hc => ⟨(hs c hc).2, by simp [hs c hc]⟩) (hc.imp_right fun h => by simp [h])
      before.length
  have hlength : before.length + s.length = (before ++ s).length := List.length_append.symm
  cases path with
  | none =>
    have hne : (0 : Byte) ≠ slash := by decide
    refine ⟨[], .literal [], ?_, rfl⟩
    show parsePath (before ++ s ++ 0 :: []) before.length = _
    rw [parsePath, hdrop, hscan 0 [] (Or.inl rfl), hlength]
    simp only [bind, Except.bind, readAt_append, if_neg hne]
  | some t =>
    refine ⟨t ++ [0], .url ((before ++ s).length + 1), ?_, ?_⟩
    · show parsePath (before ++ s ++ slash :: (t ++ [0])) before.length = _
      rw [parsePath, hdrop, hscan slash (t ++ [0]) (Or.inr rfl), hlength]
      simp only [bind, Except.bind, readAt_append, set_append, if_true]
    · have hstring := stringAt_append (before ++ s ++ [0]) [] (hpath t rfl)
      show stringAt _ ((before ++ s).length + 1) = some t
      simpa [Nat.add_assoc] using hstring

end

/-! ## The whole URL -/

/-- The tail of a buffer begins with a NUL or the separator of the path. -/
theorem optional_slash_cases (path : Option (List Byte)) :
    ∃ c rest, optional slash path ++ [0] = c :: rest ∧ (c = 0 ∨ c = slash) := by
  cases path with
  | none => exact ⟨0, [], rfl, Or.inl rfl⟩
  | some t => exact ⟨slash, t ++ [0], rfl, Or.inr rfl⟩

theorem parseScheme_http (tls : Bool) (rest : List Byte) :
    parseScheme tls (httpScheme ++ rest) = .ok (false, text ['8', '0'], httpScheme.length) := by
  have hprefix : httpScheme.isPrefixOf (httpScheme ++ rest) = true :=
    List.isPrefixOf_iff_prefix.mpr (List.prefix_append httpScheme rest)
  rw [parseScheme, if_pos hprefix]
  rfl

/-- What the variables are to point to. -/
structure Parsed.Tells (m : Parsed) (u : Url) : Prop where
  host : stringOf m.url m.host = some u.host
  port : stringOf m.url m.port = some (u.port.getD (text ['8', '0']))
  uriPath : stringOf m.url m.uriPath = some (u.path.getD [])

theorem exists_parseUrl (tls : Bool) (u : Url) :
    ∃ m, parseUrl tls u.buffer = .ok m ∧ m.Tells u := by
  have hhost : ∀ c ∈ u.host, c ≠ 0 := fun c hc => (u.host_bytes c hc).2.2
  have hscheme (rest : List Byte) := parseScheme_http tls (u.host ++ rest)
  cases hport : u.port with
  | none =>
    have hbuffer : u.buffer = httpScheme ++ (u.host ++ (optional slash u.path ++ [0])) := by
      simp [Url.buffer, hport, optional]
    obtain ⟨c, rest, htail, hc⟩ := optional_slash_cases u.path
    obtain ⟨rest', uriPath, hpath, hstring⟩ := parsePath_spec (s := [])
      (fun _ hc => absurd hc List.not_mem_nil) u.path_bytes (httpScheme ++ u.host)
    rw [List.append_nil] at hpath hstring
    refine ⟨⟨_, false, .url httpScheme.length, .literal (text ['8', '0']), uriPath⟩, ?_,
      stringAt_append httpScheme rest' hhost, ?_, hstring⟩
    · rw [parseUrl, hbuffer, hscheme]
      simp only [bind, Except.bind]
      rw [htail, ← List.append_assoc, parseHost_of_ne u.host_bytes _ hc, ← htail]
      simp only [hpath]
      rfl
    · rw [hport]
      rfl
  | some port =>
    have hbuffer : u.buffer =
        httpScheme ++ (u.host ++ (colon :: (port ++ (optional slash u.path ++ [0])))) := by
      simp [Url.buffer, hport, optional]
    have hbytes : ∀ c ∈ port, c ≠ slash ∧ c ≠ 0 := u.port_bytes port hport
    obtain ⟨rest, uriPath, hpath, hstring⟩ := parsePath_spec hbytes u.path_bytes
      (httpScheme ++ u.host ++ [0])
    have hcut : httpScheme ++ u.host ++ [0] ++ port ++ (optional slash u.path ++ [0]) =
        httpScheme ++ u.host ++ 0 :: (port ++ (optional slash u.path ++ [0])) := by simp
    have hcut' : httpScheme ++ u.host ++ [0] ++ port ++ 0 :: rest =
        httpScheme ++ u.host ++ 0 :: (port ++ 0 :: rest) := by simp
    have hlength : (httpScheme ++ u.host ++ [0]).length = (httpScheme ++ u.host).length + 1 :=
      List.length_append
    have hportString := stringAt_append (httpScheme ++ u.host ++ [0]) rest
      fun c hc => (hbytes c hc).2
    rw [hlength] at hpath hportString
    refine ⟨⟨_, false, .url httpScheme.length, .url ((httpScheme ++ u.host).length + 1), uriPath⟩,
      ?_, ?_, ?_, hstring⟩
    · rw [parseUrl, hbuffer, hscheme]
      simp only [bind, Except.bind]
      rw [← List.append_assoc, parseHost_colon u.host_bytes, ← hcut]
      simp only [hpath]
      rfl
    · show stringAt _ httpScheme.length = _
      rw [hcut']
      exact stringAt_append httpScheme _ hhost
    · rw [hport]
      exact hportString

theorem download_of_tells {m : Parsed} {u : Url} (h : m.Tells u) (sends : Sends) :
    download m sends = some u.request := by
  rw [download, h.uriPath, h.host]
  simp only [bind, Option.bind, sendall_of_pos (sends.accepts _)]
  rfl

/-- The parser stays within the buffer and leaves host, port and path, or what stands for them when
they are not given; and however little `send` takes at a time, what is sent is the request for
them. -/
theorem parse_and_request (tls : Bool) (u : Url) :
    ∃ m, parseUrl tls u.buffer = .ok m ∧ m.Tells u ∧
      ∀ sends, download m sends = some u.request := by
  obtain ⟨m, hparse, htells⟩ := exists_parseUrl tls u
  exact ⟨m, hparse, htells, fun sends => download_of_tells htells sends⟩

/-- `http://7-zip.org:8080/a` -/
def sevenZip : Url where
  host := text ['7', '-', 'z', 'i', 'p', '.', 'o', 'r', 'g']
  port := some (text ['8', '0', '8', '0'])
  path := some (text ['a'])
  host_bytes := by decide +kernel
  port_bytes := by decide +kernel
  path_bytes := by decide +kernel

/-- Every call of `send` takes two bytes. -/
def twoBytes : Sends where
  outLens _ := List.replicate 10 2
  accepts _ outLen h := by
    rw [List.eq_of_mem_replicate h]
    decide

example : (parseUrl false sevenZip.buffer).toOption.bind (download · twoBytes) =
    some sevenZip.request := by
  decide +kernel

end BigHttpDownload
end ZephyrSamples
