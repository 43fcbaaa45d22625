import Keel.Common.Directives
import Keel.Node.Publishing
/-!
# The config as text

The config is put together from hosts, addresses and paths without any
escaping, and nginx reads it as words, directives and blocks. A host that
was accepted is made of letters, digits, hyphens and dots, an address of
digits and dots: none of these ends a word, so every one of them is read
as the word it is, and the config as the directives it was meant to be
(`read_renderNginxConfig`). Which backends it is for can then be told from
the text alone (`readNginxConfig`), and no two lists of them have the same.
-/

namespace Keel

namespace Node

open Directives

namespace Reconciler

/-! ## What is meant -/

/-- Where a backend is proxied to. -/
def IngressBackendConfig.url (b : IngressBackendConfig) : String :=
  "http://" ++ b.vip ++ ":" ++ toString b.port

def IngressBackendConfig.server (b : IngressBackendConfig) : Directive :=
  .block ["server"]
    [.simple ["listen", "443", "ssl"],
      .simple ["server_name", b.host],
      .simple ["ssl_certificate", b.certPath],
      .simple ["ssl_certificate_key", b.keyPath],
      .block ["location", "/"] [.simple ["proxy_pass", b.url]]]

/-- What comes before the servers, on port 80 and outside `http`. -/
def redirect : Directive :=
  .block ["server"]
    [.simple ["listen", "80", "default_server"],
      .simple ["return", "301", "https://$host$request_uri"]]

def preamble : List Directive :=
  [.simple ["user", "www"], .simple ["worker_processes", "1"],
    .block ["events"] [.simple ["worker_connections", "1024"]]]

def nginxConfig (backends : List IngressBackendConfig) : List Directive :=
  preamble ++ [.block ["http"] (redirect :: backends.map IngressBackendConfig.server)]

/-! ## Reading it back -/

/-- An address and a port out of `http://address:port`. -/
def readUrl (url : String) : Option (String × ℕ) := do
  let rest ← url.toList.dropPrefix? "http://".toList
  let port ← parseUnsigned 16 (String.ofList (rest.dropWhile (· ≠ ':')).tail)
  return (String.ofList (rest.takeWhile (· ≠ ':')), port)

def readServer : Directive → Option IngressBackendConfig
  | .block ["server"]
      [.simple ["listen", "443", "ssl"],
        .simple ["server_name", host],
        .simple ["ssl_certificate", certPath],
        .simple ["ssl_certificate_key", keyPath],
        .block ["location", "/"] [.simple ["proxy_pass", url]]] =>
    (readUrl url).map fun (vip, port) => ⟨host, vip, port, certPath, keyPath⟩
  | _ => none

/-- **The backends of a config**, if it is one. -/
def readNginxConfig (config : String) : Option (List IngressBackendConfig) := do
  match ← Directives.read config.toList with
  | [.simple ["user", "www"], .simple ["worker_processes", "1"],
      .block ["events"] [.simple ["worker_connections", "1024"]],
      .block ["http"] (.block ["server"]
        [.simple ["listen", "80", "default_server"],
          .simple ["return", "301", "https://$host$request_uri"]] :: servers)] =>
    servers.mapM readServer
  | _ => none

theorem readServer_server {b : IngressBackendConfig} (hurl : readUrl b.url = some (b.vip, b.port)) :
    readServer b.server = some b := by
  have hread : readServer b.server =
      (readUrl b.url).map fun (vip, port) => ⟨b.host, vip, port, b.certPath, b.keyPath⟩ := rfl
  rw [hread, hurl]
  rfl

/-! ## Words -/

/-- What hosts, addresses, paths and ports are made of. -/
def isUrlChar (c : Char) : Bool :=
  isAsciiAlphanumeric c || c == '-' || c == '.' || c == '/' || c == ':'

theorem isPlain_of_isUrlChar {c : Char} (h : isUrlChar c = true) : isPlain c = true := by
  refine isPlain_of_notMem fun hc => ?_
  have hall : special.all (fun d => !isUrlChar d) = true := by decide +kernel
  have hnot := List.all_eq_true.1 hall c hc
  rw [h] at hnot
  cases hnot

/-- A word of the config. -/
def IsWord (s : String) : Prop := s.toList ≠ [] ∧ ∀ c ∈ s.toList, isUrlChar c = true

theorem IsWord.append {s u : String} (hs : s.toList.all isUrlChar = true) (hu : IsWord u) :
    IsWord (s ++ u) := by
  rw [IsWord, String.toList_append]
  refine ⟨fun h => hu.1 (List.append_eq_nil_iff.1 h).2, fun c hc => ?_⟩
  rcases List.mem_append.1 hc with hc | hc
  · exact List.all_eq_true.1 hs c hc
  · exact hu.2 c hc

/-- A word of the config is scanned as itself. -/
theorem scan_isWord {s : String} (hs : IsWord s) {c : Char} {cs : List Char} {ts : List Token}
    (hc : mark c = some ts) :
    scan [] (s.toList ++ c :: cs) = (scan [] cs).map fun r => (.word s :: ts ++ r.1, r.2) := by
  rw [scan_word (fun c hc => isPlain_of_isUrlChar (hs.2 c hc)) hs.1 hc, String.ofList_toList]

/-- An IPv4 address in dotted decimal. -/
def isDottedQuad (s : String) : Bool :=
  let parts := s.toList.splitOn '.'
  parts.length = 4 && parts.all fun part => (digits? part).any fun n => decide (n < 256)

theorem isAsciiDigit_of_digits? {cs : List Char} {n : ℕ} (h : digits? cs = some n) :
    ∀ c ∈ cs, isAsciiDigit c = true := by
  rw [digits?.eq_def] at h
  split at h
  · cases h
  · split at h
    · rename_i hall
      exact List.all_eq_true.1 hall
    · cases h

/-- An address is made of digits and dots. -/
theorem of_isDottedQuad {s : String} (h : isDottedQuad s = true) :
    ∀ c ∈ s.toList, c = '.' ∨ isAsciiDigit c = true := by
  refine forall_of_splitOn (Or.inl rfl) fun part hpart c hc => Or.inr ?_
  have hparts := List.all_eq_true.1 (Bool.and_eq_true_iff.1 h).2 part hpart
  obtain ⟨n, hn, -⟩ := (Option.any_eq_true _ _).1 hparts
  exact isAsciiDigit_of_digits? hn c hc

/-- A host is made of letters, digits, hyphens and dots, and of some. -/
theorem isWord_of_validateHost {host : String} (h : validateHost host = .ok ()) : IsWord host := by
  rw [validateHost] at h
  split at h
  case isFalse => cases h
  rename_i hvalid
  obtain ⟨hlength, hlabels⟩ := Bool.and_eq_true_iff.1 hvalid
  refine ⟨fun hnil => ?_, ?_⟩
  · rw [hnil] at hlength
    cases hlength
  · refine forall_of_splitOn (show isUrlChar '.' = true from rfl) fun label hlabel c hc => ?_
    have hchars := List.all_eq_true.1 hlabels label hlabel
    simp only [isHostLabel, Bool.and_eq_true] at hchars
    have hchar := List.all_eq_true.1 hchars.1.1.2 c hc
    rw [isUrlChar, hchar]
    rfl

/-! ## What is read -/

/-- What the hosts, addresses, ports and paths of a config are: those of
accepted ingresses and of a service table. -/
structure IngressBackendConfig.Rendered (b : IngressBackendConfig) : Prop where
  host : validateHost b.host = .ok ()
  vip : isDottedQuad b.vip = true
  port : b.port < 2 ^ 16
  certPath : b.certPath = "/usr/local/etc/nginx/certs/" ++ b.host ++ ".crt"
  keyPath : b.keyPath = "/usr/local/etc/nginx/certs/" ++ b.host ++ ".key"

/-- The blocks of accepted ingresses are such. -/
theorem rendered_serverBlock {record : IngressRecord} {vip : String} {port : ℕ}
    (hhost : validateHost record.spec.spec.host = .ok ()) (hvip : isDottedQuad vip = true)
    (hport : port < 2 ^ 16) : (serverBlock record (vip, port)).Rendered :=
  ⟨hhost, hvip, hport, rfl, rfl⟩

section Read

variable {b : IngressBackendConfig} {backends : List IngressBackendConfig}

theorem isUrlChar_of_digit {c : Char} (h : isAsciiDigit c = true) : isUrlChar c = true := by
  simp [isUrlChar, isAsciiAlphanumeric, h]

/-- The URL of a backend is one word. -/
theorem IngressBackendConfig.Rendered.isWord_url (h : b.Rendered) : IsWord b.url := by
  have hport : IsWord (toString b.port) := by
    rw [IsWord, toList_toString]
    exact ⟨Nat.toDigits_ne_nil, fun c hc =>
      isUrlChar_of_digit (isAsciiDigit_of_digits? (digits?_toDigits b.port) c hc)⟩
  have hvip : b.vip.toList.all isUrlChar = true := by
    refine List.all_eq_true.2 fun c hc => ?_
    rcases of_isDottedQuad h.vip c hc with rfl | hdigit
    · rfl
    · exact isUrlChar_of_digit hdigit
  rw [IngressBackendConfig.url, String.append_assoc, String.append_assoc]
  have hscheme : "http://".toList.all isUrlChar = true := by decide +kernel
  have hcolon : ":".toList.all isUrlChar = true := by decide +kernel
  exact IsWord.append hscheme (IsWord.append hvip (IsWord.append hcolon hport))

/-- A path to a host's file is one word. -/
theorem isWord_path {host ending : String} (hhost : IsWord host)
    (hending : ending.toList.all isUrlChar = true) :
    IsWord ("/usr/local/etc/nginx/certs/" ++ host ++ ending) := by
  refine ⟨fun h => ?_, fun c hc => ?_⟩
  · rw [String.toList_append, String.toList_append] at h
    exact hhost.1 (List.append_eq_nil_iff.1 (List.append_eq_nil_iff.1 h).1).2
  · have hdir : "/usr/local/etc/nginx/certs/".toList.all isUrlChar = true := by decide +kernel
    rw [String.toList_append, String.toList_append, List.mem_append, List.mem_append] at hc
    rcases hc with (hc | hc) | hc
    · exact List.all_eq_true.1 hdir c hc
    · exact hhost.2 c hc
    · exact List.all_eq_true.1 hending c hc

/-- The address and the port are read back from the URL. -/
theorem IngressBackendConfig.Rendered.readUrl_url (h : b.Rendered) :
    readUrl b.url = some (b.vip, b.port) := by
  have hlist : b.url.toList =
      "http://".toList ++ (b.vip.toList ++ ':' :: (toString b.port).toList) := by
    rw [IngressBackendConfig.url]
    simp
  have hprefix : b.url.toList.dropPrefix? "http://".toList =
      some (b.vip.toList ++ ':' :: (toString b.port).toList) := by
    rw [List.dropPrefix?_eq_some_iff]
    exact ⟨_, hlist, beq_self_eq_true _⟩
  have hcolon : ∀ c ∈ b.vip.toList, decide (c ≠ ':') = true := by
    intro c hc
    refine decide_eq_true fun hcolon => ?_
    rw [hcolon] at hc
    rcases of_isDottedQuad h.vip ':' hc with h | h
    · exact absurd h (by decide)
    · exact absurd h (by decide)
  have hstop : decide (':' ≠ ':') = false := rfl
  simp only [readUrl, bind, hprefix, Option.bind_some]
  rw [List.takeWhile_append_of_pos hcolon, List.dropWhile_append_of_pos hcolon,
    List.takeWhile_cons_of_neg (by simp), List.dropWhile_cons_of_neg (by simp), List.tail_cons,
    List.append_nil, String.ofList_toList, String.ofList_toList, parseUnsigned_toString h.port]
  rfl

/-- The text of a server, word by word. -/
theorem toList_renderServer (b : IngressBackendConfig) :
    (renderServer b).toList =
      "    server \x7b\n        listen 443 ssl;\n        server_name ".toList ++ (b.host.toList ++
      ';' :: ("\n        ssl_certificate ".toList ++ (b.certPath.toList ++
      ';' :: ("\n        ssl_certificate_key ".toList ++ (b.keyPath.toList ++
      ';' :: ("\n        location / \x7b\n            proxy_pass ".toList ++ (b.url.toList ++
      ';' :: "\n        \x7d\n    \x7d\n".toList))))))) := by
  have hproxy : ";\n        location / \x7b\n            proxy_pass http://".toList =
      ';' :: ("\n        location / \x7b\n            proxy_pass ".toList ++ "http://".toList) := by
    decide +kernel
  have hcertificate : ";\n        ssl_certificate ".toList =
      ';' :: "\n        ssl_certificate ".toList := by
    decide +kernel
  have hkey : ";\n        ssl_certificate_key ".toList =
      ';' :: "\n        ssl_certificate_key ".toList := by
    decide +kernel
  have hend : ";\n        \x7d\n    \x7d\n".toList = ';' :: "\n        \x7d\n    \x7d\n".toList := by
    decide +kernel
  unfold renderServer IngressBackendConfig.url
  simp only [String.toList_append, List.append_assoc]
  simp only [hproxy, hcertificate, hkey, hend, List.append_assoc, List.cons_append]

/-- **A server is scanned as the block it is meant to be.** -/
theorem scan_renderServer (h : b.Rendered) (cs : List Char) :
    scan [] ((renderServer b).toList ++ cs) =
      (scan [] cs).map fun r => (b.server.tokens ++ r.1, r.2) := by
  have hhost := isWord_of_validateHost h.host
  have hcert : IsWord b.certPath := by
    rw [h.certPath]
    exact isWord_path hhost (by decide +kernel)
  have hkey : IsWord b.keyPath := by
    rw [h.keyPath]
    exact isWord_path hhost (by decide +kernel)
  -- what stands between the words
  have hopen : scan [] "    server \x7b\n        listen 443 ssl;\n        server_name ".toList =
      some ([.word "server", .openBrace, .word "listen", .word "443", .word "ssl", .semicolon,
        .word "server_name"], []) := by
    decide +kernel
  have hcertificate : scan [] "\n        ssl_certificate ".toList =
      some ([.word "ssl_certificate"], []) := by
    decide +kernel
  have hcertificateKey : scan [] "\n        ssl_certificate_key ".toList =
      some ([.word "ssl_certificate_key"], []) := by
    decide +kernel
  have hlocation : scan [] "\n        location / \x7b\n            proxy_pass ".toList =
      some ([.word "location", .word "/", .openBrace, .word "proxy_pass"], []) := by
    decide +kernel
  have hend : scan [] "\n        \x7d\n    \x7d\n".toList = some ([.closeBrace, .closeBrace], []) := by
    decide +kernel
  have hsemicolon : mark ';' = some [.semicolon] := rfl
  refine scan_piece ?_
  rw [toList_renderServer, scan_piece hopen, scan_isWord hhost hsemicolon,
    scan_piece hcertificate, scan_isWord hcert hsemicolon, scan_piece hcertificateKey,
    scan_isWord hkey hsemicolon, scan_piece hlocation, scan_isWord h.isWord_url hsemicolon, hend]
  rfl

/-- The servers of a config, and the end of `http`. -/
theorem scan_servers (h : ∀ b ∈ backends, b.Rendered) :
    scan [] (backends.foldr (fun b rest => renderServer b ++ rest) "\x7d\n").toList =
      some (tokensAll (backends.map IngressBackendConfig.server) ++ [.closeBrace], []) := by
  induction backends with
  | nil => decide +kernel
  | cons b backends ih =>
    have hrest : ∀ b ∈ backends, b.Rendered := fun c hc => h c (List.mem_cons_of_mem b hc)
    rw [List.foldr_cons, String.toList_append, scan_renderServer (h b List.mem_cons_self),
      ih hrest, List.map_cons, tokensAll, List.append_assoc]
    rfl

/-- What is written before the servers. -/
def prologue : List Token :=
  tokensAll preamble ++ .word "http" :: .openBrace :: redirect.tokens

theorem tokensAll_nginxConfig (backends : List IngressBackendConfig) :
    tokensAll (nginxConfig backends) =
      prologue ++ (tokensAll (backends.map IngressBackendConfig.server) ++ [.closeBrace]) := by
  simp [nginxConfig, prologue, preamble, tokensAll, Directive.tokens]

/-- **The config is read as it is meant.** -/
theorem read_renderNginxConfig (h : ∀ b ∈ backends, b.Rendered) :
    Directives.read (renderNginxConfig backends).toList = some (nginxConfig backends) := by
  refine read_of_scan ?_
  have hbefore : scan [] (
      "user www; worker_processes 1;\nevents \x7b worker_connections 1024; \x7d\nhttp \x7b\n" ++
      "    server \x7b\n        listen 80 default_server;\n" ++
      "        return 301 https://$host$request_uri;\n    \x7d\n").toList = some (prologue, []) := by
    decide +kernel
  unfold renderNginxConfig
  rw [String.toList_append, scan_piece hbefore, scan_servers h, tokensAll_nginxConfig]
  rfl

theorem mapM_readServer (h : ∀ b ∈ backends, b.Rendered) :
    (backends.map IngressBackendConfig.server).mapM readServer = some backends := by
  induction backends with
  | nil => rfl
  | cons b backends ih =>
    have hrest : ∀ b ∈ backends, b.Rendered := fun c hc => h c (List.mem_cons_of_mem b hc)
    rw [List.map_cons, List.mapM_cons, readServer_server (h b List.mem_cons_self).readUrl_url,
      ih hrest]
    rfl

/-- The backends a config is for are told from its text. -/
theorem readNginxConfig_renderNginxConfig (h : ∀ b ∈ backends, b.Rendered) :
    readNginxConfig (renderNginxConfig backends) = some backends := by
  have hread : readNginxConfig (renderNginxConfig backends) =
      (backends.map IngressBackendConfig.server).mapM readServer := by
    rw [readNginxConfig, read_renderNginxConfig h]
    rfl
  rw [hread, mapM_readServer h]

/-- **Nothing can be injected into the config.** It is read as its
prologue and one block for each backend; the backends are read back from
it, in order; and no two lists of them have the same text. -/
theorem renderNginxConfig_decodes (backends : List IngressBackendConfig)
    (h : ∀ b ∈ backends, b.Rendered) :
    Directives.read (renderNginxConfig backends).toList =
      some (preamble ++ [.block ["http"] (redirect :: backends.map IngressBackendConfig.server)]) ∧
    readNginxConfig (renderNginxConfig backends) = some backends ∧
    ∀ others : List IngressBackendConfig, (∀ b ∈ others, b.Rendered) →
      renderNginxConfig others = renderNginxConfig backends → others = backends := by
  refine ⟨read_renderNginxConfig h, readNginxConfig_renderNginxConfig h, ?_⟩
  intro others hothers heq
  have hback := readNginxConfig_renderNginxConfig hothers
  rw [heq, readNginxConfig_renderNginxConfig h] at hback
  exact (Option.some.inj hback).symm

end Read

end Reconciler

/-- Two ingresses, one of them with a host of three labels. -/
def Sample.backends : List Reconciler.IngressBackendConfig :=
  [Reconciler.serverBlock ⟨ingress "shop" "shop.example" "web", none⟩ ("10.0.250.7", 80),
    Reconciler.serverBlock ⟨ingress "blog" "www.a-blog.example" "db", none⟩ ("10.0.250.8", 8080)]

/-- They are read back from their config. -/
theorem renderNginxConfig_decodes_sample :
    Reconciler.readNginxConfig (Reconciler.renderNginxConfig Sample.backends) =
      some Sample.backends := by
  refine (Reconciler.renderNginxConfig_decodes _ fun b hb => ?_).2.1
  rcases List.mem_cons.1 hb with rfl | hb
  · exact Reconciler.rendered_serverBlock rfl (by decide +kernel) (by decide)
  · rw [List.mem_singleton.1 hb]
    exact Reconciler.rendered_serverBlock rfl (by decide +kernel) (by decide)

end Node

end Keel
