import MrUDP.Address
import MrUDP.Connection.Connection
import MrUDP.Proxy.Message

/-!
# Addresses between proxies

`write` and `read` of `mrudp/Proxy.cpp` for a `mrudp_addr_t`.  What is passed on is the address and
the port of an IPv4 address, whatever the family; what is not passed on stays as it was where the
address is read to, and `on_wire_packet` does not set it.  Addresses are compared with all their
bytes, so a connection to an address with something left in it takes every packet of its peer for
one from elsewhere.

`ProxyAddress` of `MrUDP.Proxy.Message` is the part that is passed on.

## Main definitions

* `Proxy.writeAddr`, `Proxy.DataIn.readAddr`: addresses to bytes and back into memory.
* `Proxy.Produced`: the addresses there are.
* `Proxy.Decodes`: what is read is refused or is what was written.
-/

namespace MrUDP
open Wire

namespace Proxy

/-- `write(v, const mrudp_addr_t &)`. -/
def writeAddr (a : SockAddr) : Bytes :=
  52 :: (leBytes 4 a.sinAddr.toNat ++ leBytes 2 a.port.toNat)

/-- `read(v, mrudp_addr_t &)`, into the memory `a`. -/
def DataIn.readAddr (input : DataIn) (a : SockAddr) : Option (SockAddr × DataIn) :=
  match input.read 1 with
  | none => none
  | some (type, input) =>
      if type = [52] then
        let a := { a with family := afInet }
        match input.read 4 with
        | none => none
        | some (sinAddr, input) =>
            let a := { a with sinAddr := BitVec.ofNat 32 (leNat sinAddr) }
            match input.read 2 with
            | none => none
            | some (sinPort, input) =>
                some ({ a with port := BitVec.ofNat 16 (leNat sinPort) }, input)
      else none

/-- The part of an address that is passed on. -/
def proxyAddress (a : SockAddr) : ProxyAddress := ⟨a.sinAddr, a.port⟩

theorem writeAddr_eq (a : SockAddr) : writeAddr a = (proxyAddress a).bytes := rfl

/-- The part that is passed on is put into what was there. -/
theorem readAddr_eq (input : DataIn) (a : SockAddr) :
    input.readAddr a = input.readAddress.map fun (address, input) =>
      ({ a with family := afInet, sinAddr := address.sinAddr, port := address.sinPort }, input) := by
  rw [DataIn.readAddr, DataIn.readAddress]
  cases input.read 1 with
  | none => rfl
  | some typed =>
      obtain ⟨type, input⟩ := typed
      dsimp only
      split
      · cases input.read 4 with
        | none => rfl
        | some addressed =>
            obtain ⟨sinAddr, input⟩ := addressed
            dsimp only
            cases input.read 2 <;> rfl
      · rfl

/-- What comes of reading what was written: nothing is refused, and the bytes behind are left. -/
theorem readAddr_writeAddr (a d : SockAddr) (rest : Bytes) :
    DataIn.readAddr ⟨writeAddr a ++ rest, (writeAddr a ++ rest).length⟩ d =
      some ({ d with family := afInet, sinAddr := a.sinAddr, port := a.port },
        ⟨rest, rest.length⟩) := by
  have hlength : ((writeAddr a ++ rest).length : ℤ) = 7 + rest.length := by
    rw [writeAddr_eq, List.length_append, length_address, Nat.cast_add]
    rfl
  rw [readAddr_eq, hlength, writeAddr_eq, readAddress_append _ _ (by omega), Option.map_some]
  dsimp only [proxyAddress]
  congr 3
  omega

/-- An address that `toAddr` or `mrudp_str_to_addr` made. -/
def Produced (a : SockAddr) : Prop :=
  (∃ e : InetEndpoint, a = e.toAddr) ∨ ∃ (inet : Inet) (id : Text), a = strToAddr inet id

theorem Produced.exists_toAddr {a : SockAddr} (h : Produced a) : ∃ e : InetEndpoint, a = e.toAddr := by
  rcases h with h | ⟨inet, id, rfl⟩
  · exact h
  · exact strToAddr_eq_toAddr inet id

/-- Reading was refused, or it gave the address `a` and left the bytes `rest`. -/
def RefusedOr (a : SockAddr) (rest : Bytes) : Option (SockAddr × DataIn) → Prop
  | none => True
  | some (a', input) => a'.bytes = a.bytes ∧ input = ⟨rest, rest.length⟩

/-- What is read of the bytes of `a` into memory that held `d`, with `rest` behind, is refused, or it
is `a` and the bytes of `a` are used up. -/
def Decodes (a d : SockAddr) (rest : Bytes) : Prop :=
  RefusedOr a rest (DataIn.readAddr ⟨writeAddr a ++ rest, (writeAddr a ++ rest).length⟩ d)

/-- The fields that are passed on are right; what matters are the others. -/
theorem decodes_iff_fields (a d : SockAddr) (rest : Bytes) :
    Decodes a d rest ↔
      a.family = afInet ∧ d.sin6Addr = a.sin6Addr ∧ d.sin6ScopeID = a.sin6ScopeID := by
  rw [Decodes, readAddr_writeAddr, RefusedOr, SockAddr.bytes_inj]
  obtain ⟨family, port, sinAddr, sin6Addr, scope⟩ := a
  rw [SockAddr.mk.injEq]
  constructor
  · rintro ⟨⟨hfamily, _, _, hsin6Addr, hscope⟩, _⟩
    exact ⟨hfamily.symm, hsin6Addr, hscope⟩
  · rintro ⟨hfamily, hsin6Addr, hscope⟩
    exact ⟨⟨hfamily.symm, rfl, rfl, hsin6Addr, hscope⟩, rfl⟩

/-- **Where addresses survive between proxies.**  An address is read as it was written, exactly if it
is an IPv4 address and there were zeros behind where it is read to. -/
theorem decodes_iff {a : SockAddr} (ha : Produced a) (d : SockAddr) (rest : Bytes) :
    Decodes a d rest ↔ a.family = afInet ∧ d.sin6Addr = 0 ∧ d.sin6ScopeID = 0 := by
  obtain ⟨e, rfl⟩ := ha.exists_toAddr
  rw [decodes_iff_fields]
  cases e with
  | v4 address port => rfl
  | v6 address port =>
      have hnot : ¬ (InetEndpoint.v6 address port).toAddr.family = afInet :=
        show ¬ afInet6 = afInet by decide
      exact ⟨fun h => absurd h.1 hnot, fun h => absurd h.1 hnot⟩

/-- The address 127.0.0.1:80, read into zeros. -/
theorem decodes_localhost :
    Produced (InetEndpoint.v4 0x0100007F 80).toAddr ∧
      Decodes (InetEndpoint.v4 0x0100007F 80).toAddr {} [] :=
  have hproduced : Produced (InetEndpoint.v4 0x0100007F 80).toAddr := .inl ⟨_, rfl⟩
  ⟨hproduced, (decodes_iff hproduced {} []).mpr ⟨rfl, rfl, rfl⟩⟩

/-- The same address, read to where something was left, is another one; and ::1 is read as the IPv4
address 0.0.0.0. -/
theorem not_decodes_leftover :
    ¬ Decodes (InetEndpoint.v4 0x0100007F 80).toAddr { sin6Addr := 1 } [] ∧
      ¬ Decodes (InetEndpoint.v6 (1#128 <<< 120) 80).toAddr {} [] ∧
      (DataIn.readAddr ⟨writeAddr (InetEndpoint.v6 (1#128 <<< 120) 80).toAddr, 7⟩ {}).map Prod.fst =
        some (InetEndpoint.v4 0 80).toAddr := by
  refine ⟨fun h => ?_, fun h => ?_, by decide⟩
  · exact absurd ((decodes_iff_fields _ _ _).mp h).2.1 (by decide)
  · exact absurd ((decodes_iff_fields _ _ _).mp h).1 (by decide)

/-- A connection to an address that was not read as it was written discards what its peer sends, as
if it came from elsewhere. -/
theorem discard_of_not_decodes {a d a' : SockAddr} {rest : Bytes} {input : DataIn}
    (hdecodes : ¬ Decodes a d rest)
    (hread : DataIn.readAddr ⟨writeAddr a ++ rest, (writeAddr a ++ rest).length⟩ d =
      some (a', input))
    {c : Connection} (hremote : c.remoteAddress = a'.toAddress) (z : Zlib) (now : Timepoint)
    {packet : Packet} (hchallenge : packet.header.type ≠ TypeID.authenticateChallenge)
    (hresponse : packet.header.type ≠ TypeID.authenticateResponse) :
    (c.networkPathOnReceive z now packet a.toAddress).1 = .discard := by
  have hne : a ≠ a' := by
    rintro rfl
    apply hdecodes
    rw [Decodes, hread, RefusedOr]
    rw [readAddr_writeAddr, Option.some.injEq, Prod.mk.injEq] at hread
    exact ⟨rfl, hread.2.symm⟩
  have hpath : a.toAddress ≠ c.remoteAddress := by
    rw [hremote]
    exact fun h => hne (SockAddr.toAddress_inj.mp h)
  rw [Connection.networkPathOnReceive, if_neg hchallenge, if_pos hpath, if_neg hresponse]

end Proxy
end MrUDP
