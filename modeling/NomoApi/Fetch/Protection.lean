import Mathlib.Algebra.GroupWithZero.Nat
import NomoApi.Lib.Text

/-! # Addresses that must not be fetched

`SSRFProtection` (`common/ssrf_protection.go`) keeps the gateway from fetching URLs that lead into
its own network. `isPrivateIP` lists the networks by hand, and leaves out `0.0.0.0/8`, `::` and all
IPv6 multicast but the link-local one. -/

namespace NomoApi

/-- **An address** (`net.IP`), of 128 bits; those of IPv4 are mapped. -/
abbrev IP := Fin (2 ^ 128)

def IP.bits (n : Nat) (ip : IP) : Nat := ip.val / 2 ^ (128 - n)

def IP.to4 (ip : IP) : Option Nat := if ip.bits 96 = 0xffff then some (ip.val % 2 ^ 32) else none

structure IPv4Net where
  address : Nat
  length : Nat

def IPv4Net.contains (net : IPv4Net) (a : Nat) : Bool :=
  a / 2 ^ (32 - net.length) = net.address / 2 ^ (32 - net.length)

def ipv4Net (b₀ b₁ length : Nat) : IPv4Net := ⟨b₀ * 2 ^ 24 + b₁ * 2 ^ 16, length⟩

def IP.isLoopback (ip : IP) : Bool :=
  match ip.to4 with
  | some a => (ipv4Net 127 0 8).contains a
  | none => ip = 1

def IP.isLinkLocalUnicast (ip : IP) : Bool :=
  match ip.to4 with
  | some a => (ipv4Net 169 254 16).contains a
  | none => ip.bits 10 = 0xfe80 / 2 ^ 6

def IP.isLinkLocalMulticast (ip : IP) : Bool :=
  match ip.to4 with
  | some a => (ipv4Net 224 0 24).contains a
  | none => ip.bits 8 = 0xff && ip.bits 16 % 16 = 2

structure ParsedURL where
  scheme : String
  host : String

/-- **The libraries.** A printed IPv6 address starts with its first group, if that is not zero. -/
structure NetLib where
  parseURL : String → Except String ParsedURL
  splitHostPort : String → Option (String × String)
  hostname : String → String
  atoi : String → Option Int
  parseIP : String → Option IP
  parseCIDR : String → Option (IP → Bool)
  lookupIP : String → Except String (List IP)
  ipString : IP → String
  ipString_start : ∀ ip : IP, ip.to4 = none → ip.bits 16 ≠ 0 →
    ∃ rest, ipString ip = String.ofList (Nat.toDigits 16 (ip.bits 16)) ++ ":" ++ rest

def privateNets : List IPv4Net :=
  [ipv4Net 10 0 8, ipv4Net 172 16 12, ipv4Net 192 168 16, ipv4Net 127 0 8, ipv4Net 169 254 16,
    ipv4Net 224 0 4, ipv4Net 240 0 4]

def isPrivateIP (lib : NetLib) (ip : IP) : Bool :=
  ip.isLoopback || ip.isLinkLocalUnicast || ip.isLinkLocalMulticast ||
    match ip.to4 with
    | some a => privateNets.any (·.contains a)
    | none =>
      ip = 1 || hasPrefix (lib.ipString ip) "fe80:" || hasPrefix (lib.ipString ip) "fc" ||
        hasPrefix (lib.ipString ip) "fd"

def Forbidden (ip : IP) : Prop :=
  (∃ a ∈ ip.to4, (ipv4Net 0 0 8).contains a ∨ privateNets.any (·.contains a)) ∨
    ip.to4 = none ∧ (ip = 0 ∨ ip = 1 ∨ ip.bits 10 = 0xfe80 / 2 ^ 6 ∨ ip.bits 7 = 0xfc / 2 ∨
      ip.bits 8 = 0xff)
deriving Decidable

/-- **What the checks know nothing about**: `0.0.0.0/8`, `::`, and IPv6 multicast that is not
link-local. -/
def Uncovered (ip : IP) : Prop :=
  (∃ a ∈ ip.to4, (ipv4Net 0 0 8).contains a) ∨
    ip.to4 = none ∧ (ip = 0 ∨ (ip.bits 8 = 0xff ∧ ip.bits 16 % 16 ≠ 2))
deriving Decidable

/-! ### URLs -/

/-- The settings; a list of allowed ports that is empty allows all of them. -/
structure SSRFProtection where
  allowPrivateIp : Bool
  domainFilterMode : Bool
  domainList : List String
  ipFilterMode : Bool
  ipList : List String
  allowedPorts : List Int
  applyIPFilterForDomain : Bool

def isDomainListed (domain : String) (list : List String) : Bool :=
  let domain := toLower domain
  list.any fun item =>
    let item := toLower (trimSpace item)
    let tail := String.ofList (item.toList.drop 2)
    item ≠ "" && (domain = item ||
      (hasPrefix item "*." && (hasSuffix domain ("." ++ tail) || domain = tail)))

namespace SSRFProtection

variable (lib : NetLib) (p : SSRFProtection)

/-- `IsIpInCIDRList`: networks, or single addresses. -/
def isIPListed (ip : IP) : Bool :=
  p.ipList.any fun item =>
    match lib.parseCIDR item with
    | some contains => contains ip
    | none => lib.parseIP item = some ip

def isIPAccessAllowed (ip : IP) : Bool :=
  if isPrivateIP lib ip && !p.allowPrivateIp then false
  else if p.ipFilterMode then p.isIPListed lib ip else !p.isIPListed lib ip

def refusal (isPrivate : Bool) (suffix : String) (ip : IP) : Option String :=
  if p.isIPAccessAllowed lib ip then none
  else if isPrivate then some ("private IP address not allowed: " ++ suffix)
  else if p.ipFilterMode then some ("ip not in whitelist: " ++ suffix)
  else some ("ip in blacklist: " ++ suffix)

def hostPort (u : ParsedURL) : String × String :=
  (lib.splitHostPort u.host).getD
    (lib.hostname u.host, if u.scheme = "https" then "443" else "80")

/-- The error, or `none` if the URL is accepted. -/
def validateURL (urlStr : String) : Option String :=
  match lib.parseURL urlStr with
  | .error e => some ("invalid URL format: " ++ e)
  | .ok u =>
    if u.scheme ≠ "http" ∧ u.scheme ≠ "https" then
      some ("unsupported protocol: " ++ u.scheme ++ " (only http/https allowed)")
    else
      let (host, portStr) := hostPort lib u
      match lib.atoi portStr with
      | none => some ("invalid port: " ++ portStr)
      | some port =>
        if p.allowedPorts ≠ [] ∧ port ∉ p.allowedPorts then
          some ("port " ++ toString port ++ " is not allowed")
        else
          match lib.parseIP host with
          | some ip => p.refusal lib (isPrivateIP lib ip) (lib.ipString ip) ip
          | none =>
            if isDomainListed host p.domainList ≠ p.domainFilterMode then
              some ((if p.domainFilterMode then "domain not in whitelist: "
                else "domain in blacklist: ") ++ host)
            else if !p.applyIPFilterForDomain then none
            else
              match lib.lookupIP host with
              | .error e => some ("DNS resolution failed for " ++ host ++ ": " ++ e)
              | .ok ips => ips.findSome? fun ip =>
                  p.refusal lib (isPrivateIP lib ip && !p.allowPrivateIp)
                    (host ++ " resolves to " ++ lib.ipString ip) ip

end SSRFProtection

def NetLib.targets (lib : NetLib) (urlStr : String) : List IP :=
  match lib.parseURL urlStr with
  | .error _ => []
  | .ok u =>
    let host := (SSRFProtection.hostPort lib u).1
    match lib.parseIP host with
    | some ip => [ip]
    | none => (lib.lookupIP host).toOption.getD []

open SSRFProtection

/-! ### What is accepted -/

variable {lib : NetLib} {p : SSRFProtection} {ip : IP}

theorem uniqueLocal_digits : ∀ k < 512, "fc".toList <+: Nat.toDigits 16 (0xfc00 + k) ∨
    "fd".toList <+: Nat.toDigits 16 (0xfc00 + k) := by
  decide +kernel

theorem hasPrefix_uniqueLocal (lib : NetLib) (h4 : ip.to4 = none) (h : ip.bits 7 = 0xfc / 2) :
    hasPrefix (lib.ipString ip) "fc" = true ∨ hasPrefix (lib.ipString ip) "fd" = true := by
  have hbits : ip.bits 16 / 512 = ip.bits 7 := Nat.div_div_eq_div_mul ..
  have hgroup : ip.bits 16 = 0xfc00 + ip.bits 16 % 512 := by omega
  obtain ⟨rest, hrest⟩ := lib.ipString_start ip h4 (by omega)
  have hstart : ∀ c : String, c.toList <+: Nat.toDigits 16 (ip.bits 16) →
      hasPrefix (lib.ipString ip) c = true := by
    intro c hc
    rw [hasPrefix, hrest]
    refine decide_eq_true (hc.trans ?_)
    simp [String.toList_append, List.append_assoc]
  rw [hgroup] at hstart
  exact (uniqueLocal_digits _ (Nat.mod_lt _ (by decide))).imp (hstart "fc") (hstart "fd")

theorem isPrivateIP_of_forbidden (lib : NetLib) (h : Forbidden ip) (hcovered : ¬ Uncovered ip) :
    isPrivateIP lib ip = true := by
  unfold isPrivateIP IP.isLoopback IP.isLinkLocalUnicast IP.isLinkLocalMulticast
  rcases h with ⟨a, h4, hzero | hprivate⟩ | ⟨h4, hzero | hone | hlocal | hunique | hmulticast⟩
  · exact absurd (.inl ⟨a, h4, hzero⟩) hcovered
  · rw [show ip.to4 = some a from h4]
    simp [hprivate]
  · exact absurd (.inr ⟨h4, .inl hzero⟩) hcovered
  · rw [h4]
    simp [hone]
  · simp [h4, hlocal]
  · rcases hasPrefix_uniqueLocal lib h4 hunique with hfc | hfd
    · simp [h4, hfc]
    · simp [h4, hfd]
  · have hscope : ip.bits 16 % 16 = 2 := by
      by_contra hne
      exact hcovered (.inr ⟨h4, .inr ⟨hmulticast, hne⟩⟩)
    simp [h4, hmulticast, hscope]

theorem refusal_eq_none {isPrivate : Bool} {suffix : String} (hprivate : p.allowPrivateIp = false)
    (h : p.refusal lib isPrivate suffix ip = none) : isPrivateIP lib ip = false := by
  unfold refusal isIPAccessAllowed at h
  by_contra hnot
  cases isPrivate <;> simp [hprivate, eq_true_of_ne_false hnot] at h
  split at h <;> cases h

theorem validateURL_private (hprivate : p.allowPrivateIp = false)
    (hdomain : p.applyIPFilterForDomain = true) {urlStr : String}
    (h : p.validateURL lib urlStr = none) (htarget : ip ∈ lib.targets urlStr) :
    isPrivateIP lib ip = false := by
  unfold validateURL at h
  unfold NetLib.targets at htarget
  cases hurl : lib.parseURL urlStr with
  | error e =>
    rw [hurl] at h
    cases h
  | ok u =>
    rw [hurl] at h htarget
    dsimp only at h htarget
    split at h
    · cases h
    · split at h
      · cases h
      · split at h
        · cases h
        · cases hhost : lib.parseIP (hostPort lib u).1 with
          | some ip' =>
            rw [hhost] at h htarget
            rw [List.mem_singleton.mp htarget]
            exact refusal_eq_none hprivate h
          | none =>
            rw [hhost] at h htarget
            dsimp only at h htarget
            rw [hdomain] at h
            split at h
            · cases h
            · cases hips : lib.lookupIP (hostPort lib u).1 with
              | error e =>
                rw [hips] at h
                cases h
              | ok ips =>
                rw [hips] at h htarget
                exact refusal_eq_none hprivate (List.findSome?_eq_none_iff.mp h ip htarget)

theorem Uncovered.forbidden (h : Uncovered ip) : Forbidden ip := by
  rcases h with ⟨a, h4, hzero⟩ | ⟨h4, hzero | ⟨hmulticast, -⟩⟩
  · exact .inl ⟨a, h4, .inl hzero⟩
  · exact .inr ⟨h4, .inl hzero⟩
  · exact .inr ⟨h4, .inr (.inr (.inr (.inr hmulticast)))⟩

/-- **A URL that is accepted leads to no forbidden address**, iff to none that the checks know
nothing about. -/
theorem validateURL_forbidden_iff (hprivate : p.allowPrivateIp = false)
    (hdomain : p.applyIPFilterForDomain = true) {urlStr : String}
    (h : p.validateURL lib urlStr = none) :
    (∀ ip ∈ lib.targets urlStr, ¬ Forbidden ip) ↔ ∀ ip ∈ lib.targets urlStr, ¬ Uncovered ip := by
  refine ⟨fun hsafe ip htarget hip => hsafe ip htarget hip.forbidden, ?_⟩
  intro hcovered ip htarget hforbidden
  have hpublic := validateURL_private hprivate hdomain h htarget
  rw [isPrivateIP_of_forbidden lib hforbidden (hcovered ip htarget)] at hpublic
  cases hpublic

/-- **Four addresses**, as `net.ParseIP` reads them. -/
def literals : List (String × IP) :=
  [("8.8.8.8", 0xffff08080808), ("0.0.0.0", 0xffff00000000), ("::", 0),
    ("ff0e::1", 0xff0e0000000000000000000000000001)]

/-- **URLs without a port**, whose hosts are the literals, those of IPv6 in brackets. -/
def literalLib : NetLib where
  parseURL url := .ok ⟨"http", String.ofList (url.toList.drop 7)⟩
  splitHostPort _ := none
  hostname host := String.ofList (host.toList.filter fun c => c ≠ '[' ∧ c ≠ ']')
  atoi port := if port = "80" then some 80 else none
  parseIP host := literals.lookup host
  parseCIDR _ := none
  lookupIP _ := .error "no such host"
  ipString ip := String.ofList (Nat.toDigits 16 (ip.bits 16)) ++ ":" ++ ""
  ipString_start _ _ _ := ⟨"", rfl⟩

def blacklist : SSRFProtection := ⟨false, false, [], false, [], [], true⟩

theorem validateURL_public : blacklist.validateURL literalLib "http://8.8.8.8" = none ∧
    ∀ ip ∈ literalLib.targets "http://8.8.8.8", ¬ Forbidden ip := by
  have haccepted : blacklist.validateURL literalLib "http://8.8.8.8" = none := rfl
  have htargets : literalLib.targets "http://8.8.8.8" = [0xffff08080808] := by decide +kernel
  refine ⟨haccepted, (validateURL_forbidden_iff rfl rfl haccepted).mpr ?_⟩
  rw [htargets]
  exact List.forall_mem_singleton.mpr (by decide +kernel)

/-- **`http://0.0.0.0` is accepted**, and so are `http://[::]` and global multicast. -/
theorem validateURL_accepts_unspecified :
    let reaches := fun (url : String) (ip : IP) => blacklist.validateURL literalLib url = none ∧
      literalLib.targets url = [ip] ∧ Forbidden ip
    reaches "http://0.0.0.0" 0xffff00000000 ∧ reaches "http://[::]" 0 ∧
      reaches "http://[ff0e::1]" 0xff0e0000000000000000000000000001 :=
  ⟨⟨rfl, by decide +kernel, by decide +kernel⟩, ⟨rfl, by decide +kernel, by decide +kernel⟩,
    ⟨rfl, by decide +kernel, by decide +kernel⟩⟩

end NomoApi
