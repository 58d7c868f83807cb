import MrUDP.Lib.Wire
import MrUDP.Types

/-!
# Addresses, in memory and as text

`mrudp_addr_t` is a union of the socket addresses of IPv4 and IPv6, and two addresses are equal if
all its bytes are (`mrudp/Types.cpp`).  The layout here is that of Linux.  `toAddr` of
`mrudp/imp/Asio.cpp` makes an address of an endpoint; `mrudp_addr_to_str` and `mrudp_str_to_addr` of
`mrudp/mrudp.cpp` print it and read it.

What the C library does is a parameter, `Inet`, with what is known of it.  `mrudp_addr_to_str` gives
it room for the text of an IPv4 address only.  If an IPv6 address does not fit, nothing is written,
and the text is what the memory held before.

## Main definitions

* `SockAddr`: the memory of a `mrudp_addr_t`.
* `InetEndpoint.toAddr`: the addresses there are.
* `Inet`: `inet_ntop` and `inet_pton`.
* `addrToStr`, `strToAddr`: addresses to text and back.
* `RoundTrips`: what is printed is read back.
* `dottedInet`: an implementation of `Inet`.
-/

namespace MrUDP
open Wire

/-! ## In memory -/

/-- `mrudp_addr_t`.  The four bytes behind the port are `sin_addr` of an IPv4 address and
`sin6_flowinfo` of an IPv6 address; the bytes behind them belong to IPv6 only, but for `sin_zero`. -/
structure SockAddr where
  family : BitVec 16 := 0
  port : BitVec 16 := 0
  sinAddr : BitVec 32 := 0
  sin6Addr : BitVec 128 := 0
  sin6ScopeID : BitVec 32 := 0
  deriving DecidableEq, Repr

/-- `AF_INET`. -/
def afInet : BitVec 16 := 2

/-- `AF_INET6`. -/
def afInet6 : BitVec 16 := 10

/-- The bytes of the union. -/
def SockAddr.bytes (a : SockAddr) : Bytes :=
  leBytes 2 a.family.toNat ++ (leBytes 2 a.port.toNat ++ (leBytes 4 a.sinAddr.toNat ++
    (leBytes 16 a.sin6Addr.toNat ++ leBytes 4 a.sin6ScopeID.toNat)))

/-- The address as a connection compares it. -/
def SockAddr.toAddress (a : SockAddr) : Address := BitVec.ofNat 224 (leNat a.bytes)

/-- Fields of the same bytes are the same. -/
theorem leBytes_toNat_inj {n w : ℕ} (hw : 2 ^ w ≤ 256 ^ n) {x y : BitVec w}
    (h : leBytes n x.toNat = leBytes n y.toNat) : x = y := by
  rw [← ofNat_leNat_leBytes x hw, h, ofNat_leNat_leBytes y hw]

/-- `operator ==` compares all the bytes, and with them all the fields. -/
theorem SockAddr.bytes_inj {a b : SockAddr} : a.bytes = b.bytes ↔ a = b := by
  constructor
  · intro h
    obtain ⟨hfamily, h⟩ := List.append_inj h (by simp)
    obtain ⟨hport, h⟩ := List.append_inj h (by simp)
    obtain ⟨hsinAddr, h⟩ := List.append_inj h (by simp)
    obtain ⟨hsin6Addr, hscope⟩ := List.append_inj h (by simp)
    obtain ⟨_, _, _, _, _⟩ := a
    obtain ⟨_, _, _, _, _⟩ := b
    rw [SockAddr.mk.injEq]
    exact ⟨leBytes_toNat_inj (by norm_num) hfamily, leBytes_toNat_inj (by norm_num) hport,
      leBytes_toNat_inj (by norm_num) hsinAddr, leBytes_toNat_inj (by norm_num) hsin6Addr,
      leBytes_toNat_inj (by norm_num) hscope⟩
  · intro h
    rw [h]

theorem SockAddr.length_bytes (a : SockAddr) : a.bytes.length = 28 := by
  simp [SockAddr.bytes]

/-- The addresses of connections are compared in the same way. -/
theorem SockAddr.toAddress_inj {a b : SockAddr} : a.toAddress = b.toAddress ↔ a = b := by
  constructor
  · intro h
    have hlt : ∀ a : SockAddr, leNat a.bytes < 2 ^ 224 := by
      intro a
      have h := leNat_lt a.bytes
      rw [a.length_bytes] at h
      exact h.trans_eq (by norm_num)
    have hnat := congrArg BitVec.toNat h
    rw [toAddress, toAddress, BitVec.toNat_ofNat, BitVec.toNat_ofNat, Nat.mod_eq_of_lt (hlt a),
      Nat.mod_eq_of_lt (hlt b)] at hnat
    rw [← bytes_inj, ← leBytes_leNat a.bytes, ← leBytes_leNat b.bytes, hnat, length_bytes,
      length_bytes]
  · intro h
    rw [h]

/-- `htons`, and `ntohs`. -/
def htons (port : BitVec 16) : BitVec 16 :=
  BitVec.ofNat 16 (port.toNat % 256 * 256 + port.toNat / 256)

theorem htons_htons (port : BitVec 16) : htons (htons port) = port := by
  have hlt := port.isLt
  have hswap : (htons port).toNat = port.toNat % 256 * 256 + port.toNat / 256 := by
    rw [htons, BitVec.toNat_ofNat, Nat.mod_eq_of_lt (by omega)]
  have hlow : (htons port).toNat % 256 = port.toNat / 256 := by omega
  have hhigh : (htons port).toNat / 256 = port.toNat % 256 := by omega
  apply BitVec.eq_of_toNat_eq
  rw [htons, hlow, hhigh, BitVec.toNat_ofNat, Nat.div_add_mod', Nat.mod_eq_of_lt hlt]

/-- `udp::endpoint`.  The addresses are read from memory as they are, the ports in the order of the
host. -/
inductive InetEndpoint
  | v4 (address : BitVec 32) (port : BitVec 16)
  | v6 (address : BitVec 128) (port : BitVec 16)
  deriving DecidableEq, Repr

/-- `toAddr`: what is not set is zero. -/
def InetEndpoint.toAddr : InetEndpoint → SockAddr
  | .v4 address port => { family := afInet, sinAddr := address, port := htons port }
  | .v6 address port => { family := afInet6, sin6Addr := address, port := htons port }

/-! ## Text -/

/-- The characters of a string. -/
abbrev Text := List Char

/-- The character that ends a string. -/
def nul : Char := Char.ofNat 0

/-- `inet_ntop` and `inet_pton`, and what is known of them: an address is read back from its text.
The text of an IPv4 address has at most 15 characters, and no colon or bracket; that of an IPv6
address has a colon. -/
structure Inet where
  ntop4 : BitVec 32 → Text
  ntop6 : BitVec 128 → Text
  pton4 : Text → Option (BitVec 32)
  pton6 : Text → Option (BitVec 128)
  pton4_ntop4 : ∀ a, pton4 (ntop4 a) = some a
  pton6_ntop6 : ∀ a, pton6 (ntop6 a) = some a
  length_ntop4 : ∀ a, (ntop4 a).length < 16
  ntop4_plain : ∀ a, ∀ c ∈ ntop4 a, c ≠ ':' ∧ c ≠ '[' ∧ c ≠ nul
  colon_mem_ntop6 : ∀ a, ':' ∈ ntop6 a
  nul_not_mem_ntop6 : ∀ a, nul ∉ ntop6 a

/-- `inet_ntop` into an array of `size` characters.  If the text does not fit, or the family is not
known, the array stays as it is. -/
def Inet.inetNtop (inet : Inet) (a : SockAddr) (str : Text) (size : ℕ) : Text :=
  let put (text : Text) : Text :=
    if text.length < size then text ++ nul :: str.drop (text.length + 1) else str
  if a.family = afInet then put (inet.ntop4 a.sinAddr)
  else if a.family = afInet6 then put (inet.ntop6 a.sin6Addr)
  else str

/-- The string in an array, if it ends there. -/
def cString (str : Text) : Option Text :=
  if nul ∈ str then some (str.takeWhile (· ≠ nul)) else none

/-- `INET_ADDRSTRLEN`. -/
def inetAddrstrlen : ℕ := 16

/-- What comes of `mrudp_addr_to_str`. -/
inductive Printed
  /-- `MRUDP_OK`, and what is written to `out`. -/
  | ok (out : Text)
  /-- `MRUDP_ERROR_GENERAL_FAILURE`. -/
  | generalFailure
  /-- It reads beyond the end of its array. -/
  | overrun
  deriving DecidableEq, Repr

/-- `mrudp_addr_to_str`.  `str` is what the array on the stack holds at first. -/
def addrToStr (inet : Inet) (str : Text) (a : SockAddr) (outSize : ℕ) : Printed :=
  match cString (inet.inetNtop a str inetAddrstrlen) with
  | none => .overrun
  | some text =>
      let s := text ++ ':' :: Nat.toDigits 10 (htons a.port).toNat
      if outSize ≤ s.length then .generalFailure else .ok s

/-- `std::string::rfind`. -/
def rfind (c : Char) : Text → Option ℕ
  | [] => none
  | x :: xs =>
      match rfind c xs with
      | some i => some (i + 1)
      | none => if x = c then some 0 else none

/-- `isspace`. -/
def isspace (c : Char) : Bool := c.toNat = 32 || (9 ≤ c.toNat && c.toNat ≤ 13)

/-- `atoi`, on numbers that an `int` holds. -/
def atoi (s : Text) : ℤ :=
  let digits (s : Text) : ℤ := Nat.ofDigitChars 10 (s.takeWhile Char.isDigit) 0
  match s.dropWhile isspace with
  | '-' :: s => -digits s
  | '+' :: s => digits s
  | s => digits s

/-- `mrudp_str_to_addr`.  If there is no colon, the whole text is both the address and the port; if
`inet_pton` fails, the address stays zero. -/
def strToAddr (inet : Inet) (id : Text) : SockAddr :=
  let (ip, port) := match rfind ':' id with
    | some colon => (id.take colon, id.drop (colon + 1))
    | none => (id, id)
  let port := htons (BitVec.ofInt 16 (atoi port))
  if ':' ∈ ip ∨ '[' ∈ ip then
    { family := afInet6, sin6Addr := (inet.pton6 ip).getD 0, port := port }
  else { family := afInet, sinAddr := (inet.pton4 ip).getD 0, port := port }

/-! ## Reading what was printed -/

theorem rfind_of_not_mem {c : Char} {s : Text} (h : c ∉ s) : rfind c s = none := by
  induction s with
  | nil => rfl
  | cons x s ih =>
      rw [List.mem_cons, not_or] at h
      rw [rfind, ih h.2]
      exact if_neg (Ne.symm h.1)

theorem rfind_append_cons {c : Char} (s : Text) {t : Text} (h : c ∉ t) :
    rfind c (s ++ c :: t) = some s.length := by
  induction s with
  | nil =>
      rw [List.nil_append, rfind, rfind_of_not_mem h]
      exact if_pos rfl
  | cons x s ih => rw [List.cons_append, rfind, ih, List.length_cons]

theorem isDigit_of_mem_decimal {n : ℕ} {c : Char} (h : c ∈ Nat.toDigits 10 n) : c.isDigit = true :=
  Nat.isDigit_of_mem_toDigits (by decide) (by decide) h

/-- There is no colon in a port. -/
theorem colon_not_mem_decimal (n : ℕ) : ':' ∉ Nat.toDigits 10 n :=
  fun h => absurd (isDigit_of_mem_decimal h) (by decide)

/-- A printed number is read back. -/
theorem atoi_toDigits (n : ℕ) : atoi (Nat.toDigits 10 n) = n := by
  have hdigits : ∀ c ∈ Nat.toDigits 10 n, c.isDigit = true := fun c => isDigit_of_mem_decimal
  have hvalue : Nat.ofDigitChars 10 ((Nat.toDigits 10 n).takeWhile Char.isDigit) 0 = n := by
    rw [List.takeWhile_eq_self_iff.mpr hdigits]
    exact Nat.ofDigitChars_toDigits (by decide) (by decide)
  obtain ⟨c, s, hcons⟩ := List.exists_cons_of_ne_nil (Nat.toDigits_ne_nil (n := n) (b := 10))
  have hc : c.isDigit = true := hdigits c (by rw [hcons]; exact List.mem_cons_self)
  have hspace : isspace c = false := by
    have hrange : 48 ≤ c.toNat ∧ c.toNat ≤ 57 := by
      simpa [Char.isDigit, UInt32.le_iff_toNat_le] using hc
    have hnot : c.toNat ≠ 32 ∧ (9 ≤ c.toNat → 13 < c.toNat) := by omega
    simpa [isspace] using hnot
  rw [hcons] at hvalue ⊢
  rw [atoi, List.dropWhile_cons_of_neg (by rw [hspace]; exact Bool.false_ne_true)]
  split
  next h =>
    rw [List.cons.injEq] at h
    rw [h.1] at hc
    exact absurd hc (by decide)
  next h =>
    rw [List.cons.injEq] at h
    rw [h.1] at hc
    exact absurd hc (by decide)
  · exact congrArg Nat.cast hvalue

/-- What was printed before the last colon is the address, and what was printed behind it the
port. -/
theorem strToAddr_append (inet : Inet) (ip : Text) (port : BitVec 16) :
    strToAddr inet (ip ++ ':' :: Nat.toDigits 10 port.toNat) =
      if ':' ∈ ip ∨ '[' ∈ ip then
        { family := afInet6, sin6Addr := (inet.pton6 ip).getD 0, port := htons port }
      else { family := afInet, sinAddr := (inet.pton4 ip).getD 0, port := htons port } := by
  have hip : (ip ++ ':' :: Nat.toDigits 10 port.toNat).take ip.length = ip := List.take_left
  have hport : (ip ++ ':' :: Nat.toDigits 10 port.toNat).drop (ip.length + 1) =
      Nat.toDigits 10 port.toNat := by
    rw [← List.drop_drop, List.drop_left, List.drop_one, List.tail_cons]
  have hnumber : BitVec.ofInt 16 (atoi (Nat.toDigits 10 port.toNat)) = port := by
    rw [atoi_toDigits, BitVec.ofInt_natCast, BitVec.ofNat_toNat, BitVec.setWidth_eq]
  rw [strToAddr, rfind_append_cons ip (colon_not_mem_decimal _)]
  simp only [hip, hport, hnumber]

/-- A text that fits is the string in the array. -/
theorem cString_append {text : Text} (h : nul ∉ text) (rest : Text) :
    cString (text ++ nul :: rest) = some text := by
  have hall : ∀ c ∈ text, decide (c ≠ nul) = true := by
    intro c hc
    rw [decide_eq_true_eq]
    rintro rfl
    exact h hc
  rw [cString, if_pos (List.mem_append_right _ List.mem_cons_self),
    List.takeWhile_append_of_pos hall, List.takeWhile_cons_of_neg (by simp), List.append_nil]

/-- The text of the address of an endpoint. -/
def InetEndpoint.text (inet : Inet) : InetEndpoint → Text
  | .v4 address _ => inet.ntop4 address
  | .v6 address _ => inet.ntop6 address

/-- Its port. -/
def InetEndpoint.port : InetEndpoint → BitVec 16
  | .v4 _ port | .v6 _ port => port

theorem InetEndpoint.htons_port (e : InetEndpoint) : htons e.toAddr.port = e.port := by
  cases e <;> exact htons_htons _

/-- `inet_ntop` writes the text of the address, if there is room. -/
theorem inetNtop_toAddr (inet : Inet) (e : InetEndpoint) (str : Text) (size : ℕ) :
    inet.inetNtop e.toAddr str size =
      if (e.text inet).length < size then
        e.text inet ++ nul :: str.drop ((e.text inet).length + 1)
      else str := by
  cases e <;> rfl

theorem nul_not_mem_text (inet : Inet) (e : InetEndpoint) : nul ∉ e.text inet := by
  cases e with
  | v4 address port => exact fun h => (inet.ntop4_plain address nul h).2.2 rfl
  | v6 address port => exact inet.nul_not_mem_ntop6 address

/-- Reading the text of an address gives the address. -/
theorem strToAddr_text (inet : Inet) (e : InetEndpoint) :
    strToAddr inet (e.text inet ++ ':' :: Nat.toDigits 10 e.port.toNat) = e.toAddr := by
  rw [strToAddr_append]
  cases e with
  | v4 address port =>
      have hplain : ¬ (':' ∈ inet.ntop4 address ∨ '[' ∈ inet.ntop4 address) := by
        rintro (h | h)
        · exact (inet.ntop4_plain address _ h).1 rfl
        · exact (inet.ntop4_plain address _ h).2.1 rfl
      simp only [InetEndpoint.text, if_neg hplain, inet.pton4_ntop4]
      rfl
  | v6 address port =>
      simp only [InetEndpoint.text, if_pos (Or.inl (inet.colon_mem_ntop6 address)),
        inet.pton6_ntop6]
      rfl

/-- What is read is an address of the same kind as an endpoint's: what is not set is zero. -/
theorem strToAddr_eq_toAddr (inet : Inet) (id : Text) :
    ∃ e : InetEndpoint, strToAddr inet id = e.toAddr := by
  have heither : ∀ ip port : Text, ∃ e : InetEndpoint,
      (if ':' ∈ ip ∨ '[' ∈ ip then
        { family := afInet6, sin6Addr := (inet.pton6 ip).getD 0
          port := htons (BitVec.ofInt 16 (atoi port)) }
      else
        { family := afInet, sinAddr := (inet.pton4 ip).getD 0
          port := htons (BitVec.ofInt 16 (atoi port)) }) = e.toAddr := by
    intro ip port
    split
    · exact ⟨.v6 _ _, rfl⟩
    · exact ⟨.v4 _ _, rfl⟩
  exact heither _ _

/-- What is printed, into every buffer that is large enough and whatever the array on the stack held
before, is read back as the same address. -/
def RoundTrips (inet : Inet) (e : InetEndpoint) : Prop :=
  ∃ size, ∀ outSize, size ≤ outSize → ∀ str : Text, str.length = inetAddrstrlen →
    ∃ out, addrToStr inet str e.toAddr outSize = .ok out ∧
      (strToAddr inet out).bytes = e.toAddr.bytes

/-- A text that has room makes the round trip. -/
theorem roundTrips_of_fits {inet : Inet} {e : InetEndpoint}
    (h : (e.text inet).length < inetAddrstrlen) : RoundTrips inet e := by
  refine ⟨(e.text inet ++ ':' :: Nat.toDigits 10 e.port.toNat).length + 1, ?_⟩
  intro outSize hsize str _
  refine ⟨e.text inet ++ ':' :: Nat.toDigits 10 e.port.toNat, ?_, ?_⟩
  · rw [addrToStr, inetNtop_toAddr, if_pos h, cString_append (nul_not_mem_text inet e)]
    simp only [e.htons_port]
    exact if_neg (by omega)
  · rw [strToAddr_text]

/-- If the array held the empty string and nothing was written, the text is a port only, which is
read as an IPv4 address. -/
theorem addrToStr_of_not_fits {inet : Inet} {e : InetEndpoint}
    (h : ¬ (e.text inet).length < inetAddrstrlen) {outSize : ℕ} {out : Text}
    (hout : addrToStr inet (List.replicate inetAddrstrlen nul) e.toAddr outSize = .ok out) :
    (strToAddr inet out).family = afInet := by
  have hempty : cString (List.replicate inetAddrstrlen nul) = some [] := by decide
  rw [addrToStr, inetNtop_toAddr, if_neg h, hempty] at hout
  dsimp only at hout
  split at hout
  · exact absurd hout (by simp)
  · rw [← Printed.ok.inj hout, strToAddr_append, if_neg (by simp)]

/-- Only a text that has room makes the round trip. -/
theorem fits_of_roundTrips {inet : Inet} {address : BitVec 128} {port : BitVec 16}
    (h : RoundTrips inet (.v6 address port)) :
    (inet.ntop6 address).length < inetAddrstrlen := by
  obtain ⟨size, h⟩ := h
  by_contra hlong
  obtain ⟨out, hout, hbytes⟩ := h size (le_refl _) (List.replicate inetAddrstrlen nul)
    List.length_replicate
  have hfamily := addrToStr_of_not_fits (e := .v6 address port) hlong hout
  rw [SockAddr.bytes_inj.mp hbytes] at hfamily
  exact absurd (show afInet6 = afInet from hfamily) (by decide)

/-- **Where addresses survive as text.**  What is printed is read back exactly for the IPv4
addresses, and for the IPv6 addresses whose text has fewer characters than the text of an IPv4
address may take. -/
theorem roundTrips_iff (inet : Inet) (e : InetEndpoint) :
    RoundTrips inet e ↔
      match e with
      | .v4 _ _ => True
      | .v6 address _ => (inet.ntop6 address).length < inetAddrstrlen := by
  cases e with
  | v4 address port =>
      exact iff_of_true (roundTrips_of_fits (inet.length_ntop4 address)) trivial
  | v6 address port =>
      exact ⟨fits_of_roundTrips, fun h => roundTrips_of_fits (e := .v6 address port) h⟩

/-! ## An implementation of the C library's functions -/

/-- The number a digit stands for, up to base 16. -/
def digitValue (c : Char) : ℕ := if c.isDigit then c.toNat - 48 else c.toNat - 87

/-- The number a numeral stands for. -/
def numeralValue (b : ℕ) (s : Text) : ℕ := s.foldl (fun n c => b * n + digitValue c) 0

theorem digitValue_digitChar : ∀ n < 16, digitValue n.digitChar = n := by decide

/-- A numeral is read back. -/
theorem numeralValue_toDigits {b : ℕ} (hb : 1 < b) (hb' : b ≤ 16) (n : ℕ) :
    numeralValue b (Nat.toDigits b n) = n := by
  -- The digits but the last are those of `n / b`.
  induction n using Nat.strong_induction_on with
  | _ n ih =>
      by_cases h : n < b
      · rw [Nat.toDigits_of_lt_base h]
        show b * 0 + digitValue n.digitChar = n
        rw [digitValue_digitChar n (by omega), Nat.mul_zero, Nat.zero_add]
      · have hdigits : numeralValue b (Nat.toDigits b (n / b)) = n / b :=
          ih _ (Nat.div_lt_self (by omega) hb)
        have hlast : n % b < b := Nat.mod_lt _ (by omega)
        rw [Nat.toDigits_of_base_le hb (by omega), numeralValue, List.foldl_append]
        show b * numeralValue b (Nat.toDigits b (n / b)) + digitValue (n % b).digitChar = n
        rw [hdigits, digitValue_digitChar _ (by omega), Nat.div_add_mod]

theorem exists_digitChar_of_mem {b : ℕ} (hb : 1 < b) {n : ℕ} {c : Char}
    (h : c ∈ Nat.toDigits b n) : ∃ k < b, c = k.digitChar := by
  induction n using Nat.strong_induction_on with
  | _ n ih =>
      by_cases hn : n < b
      · rw [Nat.toDigits_of_lt_base hn, List.mem_singleton] at h
        exact ⟨n, hn, h⟩
      · rw [Nat.toDigits_of_base_le hb (by omega), List.mem_append, List.mem_singleton] at h
        rcases h with h | h
        · exact ih _ (Nat.div_lt_self (by omega) hb) h
        · exact ⟨n % b, Nat.mod_lt _ (by omega), h⟩

/-- There are no separators in a numeral. -/
theorem ne_of_mem_toDigits {b : ℕ} (hb : 1 < b) (hb' : b ≤ 16) {n : ℕ} {c : Char}
    (h : c ∈ Nat.toDigits b n) : c ≠ ':' ∧ c ≠ '.' ∧ c ≠ '[' ∧ c ≠ nul := by
  have hdigits : ∀ k < 16, k.digitChar ≠ ':' ∧ k.digitChar ≠ '.' ∧ k.digitChar ≠ '[' ∧
      k.digitChar ≠ nul := by decide
  obtain ⟨k, hk, rfl⟩ := exists_digitChar_of_mem hb h
  exact hdigits k (by omega)

/-- Numbers in base `b`, with a separator between them. -/
def printGroups (separator : Char) (b : ℕ) (groups : List ℕ) : Text :=
  [separator].intercalate (groups.map (Nat.toDigits b))

/-- The numbers between separators. -/
def parseGroups (separator : Char) (b : ℕ) (s : Text) : List ℕ :=
  (s.splitOn separator).map (numeralValue b)

theorem parseGroups_printGroups {separator : Char} (hseparator : separator = ':' ∨ separator = '.')
    {b : ℕ} (hb : 1 < b) (hb' : b ≤ 16) {groups : List ℕ} (hgroups : groups ≠ []) :
    parseGroups separator b (printGroups separator b groups) = groups := by
  have hfree : ∀ s ∈ groups.map (Nat.toDigits b), separator ∉ s := by
    intro s hs hmem
    obtain ⟨n, _, rfl⟩ := List.mem_map.mp hs
    have hne := ne_of_mem_toDigits hb hb' hmem
    rcases hseparator with rfl | rfl
    · exact hne.1 rfl
    · exact hne.2.1 rfl
  rw [parseGroups, printGroups, List.splitOn_intercalate _ hfree (by simpa using hgroups),
    List.map_map]
  calc groups.map (numeralValue b ∘ Nat.toDigits b)
      = groups.map id := List.map_congr_left fun n _ => numeralValue_toDigits hb hb' n
    _ = groups := List.map_id _

theorem printGroups_cons_cons (separator : Char) (b m n : ℕ) (groups : List ℕ) :
    printGroups separator b (m :: n :: groups) =
      Nat.toDigits b m ++ separator :: printGroups separator b (n :: groups) := by
  rw [printGroups, List.map_cons, List.map_cons, List.intercalate_cons_cons, List.append_assoc]
  rfl

theorem printGroups_singleton (separator : Char) (b n : ℕ) :
    printGroups separator b [n] = Nat.toDigits b n := by
  simp [printGroups, List.intercalate]

/-- There is nothing but separators and digits. -/
theorem mem_printGroups {separator : Char} {b : ℕ} {groups : List ℕ} {c : Char}
    (h : c ∈ printGroups separator b groups) : c = separator ∨ ∃ n, c ∈ Nat.toDigits b n := by
  induction groups with
  | nil => exact absurd h (by simp [printGroups, List.intercalate])
  | cons m groups ih =>
      cases groups with
      | nil =>
          rw [printGroups_singleton] at h
          exact .inr ⟨m, h⟩
      | cons n groups =>
          rw [printGroups_cons_cons, List.mem_append, List.mem_cons] at h
          rcases h with h | h | h
          · exact .inr ⟨m, h⟩
          · exact .inl h
          · exact ih h

/-- Bytes two by two, the first the more significant. -/
def pairs : Bytes → List ℕ
  | b :: c :: bs => (b.toNat * 256 + c.toNat) :: pairs bs
  | _ => []

/-- The bytes of the pairs. -/
def unpairs (groups : List ℕ) : Bytes :=
  groups.flatMap fun n => [UInt8.ofNat (n / 256), UInt8.ofNat n]

theorem unpairs_pairs {n : ℕ} {bs : Bytes} (h : bs.length = 2 * n) : unpairs (pairs bs) = bs := by
  induction n generalizing bs with
  | zero => rw [List.eq_nil_of_length_eq_zero h]; rfl
  | succ n ih =>
      obtain ⟨b, bs, rfl⟩ := List.exists_cons_of_length_pos (by omega : 0 < bs.length)
      rw [List.length_cons] at h
      obtain ⟨c, bs, rfl⟩ := List.exists_cons_of_length_pos (by omega : 0 < bs.length)
      rw [List.length_cons] at h
      have hlt := c.toNat_lt
      have hb : UInt8.ofNat ((b.toNat * 256 + c.toNat) / 256) = b := by
        rw [show (b.toNat * 256 + c.toNat) / 256 = b.toNat by omega, UInt8.ofNat_toNat]
      have hc : UInt8.ofNat (b.toNat * 256 + c.toNat) = c := by
        apply UInt8.toNat_inj.mp
        rw [UInt8.toNat_ofNat']
        omega
      rw [pairs, unpairs, List.flatMap_cons, hb, hc]
      exact congrArg ([b, c] ++ ·) (ih (by omega))

/-- Four decimals. -/
def dottedNtop4 (a : BitVec 32) : Text := printGroups '.' 10 ((leBytes 4 a.toNat).map UInt8.toNat)

/-- Eight hexadecimals, without any left out. -/
def dottedNtop6 (a : BitVec 128) : Text := printGroups ':' 16 (pairs (leBytes 16 a.toNat))

/-- Reads four decimals. -/
def dottedPton4 (s : Text) : Option (BitVec 32) :=
  let groups := parseGroups '.' 10 s
  if groups.length = 4 then some (BitVec.ofNat 32 (leNat (groups.map UInt8.ofNat))) else none

/-- Reads eight hexadecimals. -/
def dottedPton6 (s : Text) : Option (BitVec 128) :=
  let groups := parseGroups ':' 16 s
  if groups.length = 8 then some (BitVec.ofNat 128 (leNat (unpairs groups))) else none

theorem dottedPton4_dottedNtop4 (a : BitVec 32) : dottedPton4 (dottedNtop4 a) = some a := by
  have hgroups : (leBytes 4 a.toNat).map UInt8.toNat ≠ [] := by simp [leBytes]
  have hbytes : ((leBytes 4 a.toNat).map UInt8.toNat).map UInt8.ofNat = leBytes 4 a.toNat := by
    simp [List.map_map, Function.comp_def]
  have hparse := parseGroups_printGroups (.inr rfl) (by decide : 1 < 10) (by decide) hgroups
  rw [dottedPton4, dottedNtop4, hparse, if_pos (by simp), hbytes,
    ofNat_leNat_leBytes a (by norm_num)]

theorem dottedPton6_dottedNtop6 (a : BitVec 128) : dottedPton6 (dottedNtop6 a) = some a := by
  have hgroups : pairs (leBytes 16 a.toNat) ≠ [] := by simp [leBytes, pairs]
  have hlength : (pairs (leBytes 16 a.toNat)).length = 8 := by simp [leBytes, pairs]
  have hparse := parseGroups_printGroups (.inl rfl) (by decide : 1 < 16) (by decide) hgroups
  rw [dottedPton6, dottedNtop6, hparse, if_pos hlength,
    unpairs_pairs (n := 8) (length_leBytes 16 a.toNat), ofNat_leNat_leBytes a (by norm_num)]

/-- Four numbers of three digits each, and three dots. -/
theorem length_dottedNtop4 (a : BitVec 32) : (dottedNtop4 a).length < 16 := by
  have hdigits : ∀ b : UInt8, (Nat.toDigits 10 b.toNat).length ≤ 3 := by
    intro b
    rw [Nat.length_toDigits_le_iff (by decide) (by decide)]
    have hb := b.toNat_lt
    omega
  simp only [dottedNtop4, leBytes, List.map_cons, List.map_nil, printGroups_cons_cons,
    printGroups_singleton, List.length_append, List.length_cons]
  have h₀ := hdigits (UInt8.ofNat a.toNat)
  have h₁ := hdigits (UInt8.ofNat (a.toNat / 256))
  have h₂ := hdigits (UInt8.ofNat (a.toNat / 256 / 256))
  have h₃ := hdigits (UInt8.ofNat (a.toNat / 256 / 256 / 256))
  omega

theorem dottedNtop4_plain (a : BitVec 32) (c : Char) (hc : c ∈ dottedNtop4 a) :
    c ≠ ':' ∧ c ≠ '[' ∧ c ≠ nul := by
  rcases mem_printGroups hc with rfl | ⟨n, hn⟩
  · decide
  · have hne := ne_of_mem_toDigits (by decide) (by decide) hn
    exact ⟨hne.1, hne.2.2⟩

theorem colon_mem_dottedNtop6 (a : BitVec 128) : ':' ∈ dottedNtop6 a := by
  simp [dottedNtop6, leBytes, pairs, printGroups_cons_cons]

theorem nul_not_mem_dottedNtop6 (a : BitVec 128) : nul ∉ dottedNtop6 a := by
  intro hnul
  rcases mem_printGroups hnul with h | ⟨n, hn⟩
  · exact absurd h (by decide)
  · exact (ne_of_mem_toDigits (by decide) (by decide) hn).2.2.2 rfl

/-- Addresses as dotted decimals and as hexadecimals. -/
def dottedInet : Inet where
  ntop4 := dottedNtop4
  ntop6 := dottedNtop6
  pton4 := dottedPton4
  pton6 := dottedPton6
  pton4_ntop4 := dottedPton4_dottedNtop4
  pton6_ntop6 := dottedPton6_dottedNtop6
  length_ntop4 := length_dottedNtop4
  ntop4_plain := dottedNtop4_plain
  colon_mem_ntop6 := colon_mem_dottedNtop6
  nul_not_mem_ntop6 := nul_not_mem_dottedNtop6

/-- Printing 2001:db8:85a3:8d3:1319:8a2e:370:7348 takes 36 characters.  If the array on the stack
held the empty string, only the port is printed, and it is not the address that is read back. -/
theorem long_not_roundTrips :
    (dottedInet.ntop6 0x487370032e8a1913d308a385b80d0120#128) =
        "2001:db8:85a3:8d3:1319:8a2e:370:7348".toList ∧
      addrToStr dottedInet (List.replicate 16 nul)
        (InetEndpoint.v6 0x487370032e8a1913d308a385b80d0120#128 80).toAddr 128 =
          .ok ":80".toList ∧
      ¬ RoundTrips dottedInet (.v6 0x487370032e8a1913d308a385b80d0120#128 80) := by
  have htext : dottedInet.ntop6 0x487370032e8a1913d308a385b80d0120#128 =
      "2001:db8:85a3:8d3:1319:8a2e:370:7348".toList := by decide
  refine ⟨htext, by decide, fun h => ?_⟩
  have hfits := fits_of_roundTrips h
  rw [htext] at hfits
  exact absurd hfits (by decide)

end MrUDP
