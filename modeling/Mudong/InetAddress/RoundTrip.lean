import Mudong.InetAddress

namespace mudong.ev

theorem length_digits_octet (octet : UInt8) : (Nat.toDigits 10 octet.toNat).length ≤ 3 := by
  rw [Nat.length_toDigits_le_iff (by decide) (by decide)]
  have hlt := octet.toNat_lt
  omega

namespace Pton

/-- What has been read so far is the text of the numbers before the current one, each with its dot, and the digits of
the current one. -/
structure Reads (text : List Char) (s : Pton) : Prop where
  text_eq : text = s.before.flatMap (fun octet => Nat.toDigits 10 octet.toNat ++ ['.']) ++
    (if s.sawDigit then Nat.toDigits 10 s.current else [])
  octets_eq : s.octets = s.before.length + s.sawDigit.toNat
  octets_le : s.octets ≤ 4
  before_le : s.before.length ≤ 3
  current_le : s.current ≤ 255
  current_eq : s.sawDigit = false → s.current = 0

theorem init_reads : Reads [] init := ⟨rfl, rfl, by decide, by decide, by decide, fun _ => rfl⟩

theorem Reads.step {text : List Char} {s s' : Pton} {ch : Char} (h : Reads text s) (hstep : s.step ch = some s') :
    Reads (text ++ [ch]) s' := by
  obtain ⟨htext, hoctets, hle, hbefore, hcurrent, hnone⟩ := h
  unfold Pton.step at hstep
  by_cases hdigit : ch.isDigit = true
  · rw [if_pos hdigit] at hstep
    dsimp only at hstep
    by_cases hzero : s.sawDigit = true ∧ s.current = 0
    · rw [if_pos hzero] at hstep
      cases hstep
    · rw [if_neg hzero] at hstep
      by_cases hlarge : 255 < s.current * 10 + Decimal.value ch
      · rw [if_pos hlarge] at hstep
        cases hstep
      · rw [if_neg hlarge] at hstep
        cases hsaw : s.sawDigit with
        | true =>
          have hpos : 0 < s.current := Nat.pos_of_ne_zero fun h => hzero ⟨hsaw, h⟩
          simp only [hsaw, if_true, Option.some.injEq] at hstep
          subst hstep
          refine ⟨?_, by rw [hoctets, hsaw], hle, hbefore, Nat.le_of_not_lt hlarge, fun h => ?_⟩
          · simp [htext, hsaw, Decimal.toDigits_snoc hpos hdigit]
          · cases h
        | false =>
          simp only [hsaw, Bool.false_eq_true, if_false, Option.ite_none_left_eq_some, Option.some.injEq] at hstep
          obtain ⟨hroom, rfl⟩ := hstep
          refine ⟨?_, ?_, Nat.le_of_not_lt hroom, hbefore, Nat.le_of_not_lt hlarge, fun h => by cases h⟩
          · simp [htext, hsaw, hnone hsaw, Decimal.toDigits_value hdigit]
          · simp [hoctets, hsaw]
  · rw [if_neg hdigit] at hstep
    by_cases hdot : ch = '.' ∧ s.sawDigit = true
    · obtain ⟨rfl, hsaw⟩ := hdot
      simp only [hsaw, and_self, if_true, Option.ite_none_left_eq_some, Option.some.injEq] at hstep
      obtain ⟨hnot, rfl⟩ := hstep
      have hbyte : (UInt8.ofNat s.current).toNat = s.current := by
        rw [UInt8.toNat_ofNat']
        exact Nat.mod_eq_of_lt (by omega)
      rw [hsaw, Bool.toNat_true] at hoctets
      refine ⟨?_, ?_, hle, ?_, Nat.zero_le _, fun _ => rfl⟩
      · simp [htext, hsaw, hbyte]
      · simp [hoctets]
      · simp only [List.length_append, List.length_singleton]
        omega
    · rw [if_neg hdot] at hstep
      cases hstep

theorem Reads.foldlM {text more : List Char} {s s' : Pton} (h : Reads text s)
    (hrun : more.foldlM Pton.step s = some s') : Reads (text ++ more) s' := by
  induction more generalizing text s with
  | nil =>
    obtain rfl := Option.some.inj hrun
    rwa [List.append_nil]
  | cons ch more ih =>
    rw [List.foldlM_cons, Option.bind_eq_bind, Option.bind_eq_some_iff] at hrun
    obtain ⟨t, hstep, hrest⟩ := hrun
    have hreads := ih (h.step hstep) hrest
    rwa [List.append_assoc] at hreads

/-- The digits of a number are read to the end of it. -/
theorem foldlM_octet (octet : UInt8) {s : Pton} (hcurrent : s.current = 0) (hsaw : s.sawDigit = false)
    (hroom : s.octets < 4) :
    (Nat.toDigits 10 octet.toNat).foldlM Pton.step s =
      some { s with current := octet.toNat, octets := s.octets + 1, sawDigit := true } := by
  have hbyte : octet.toNat ≤ 255 := Nat.le_of_lt_succ octet.toNat_lt
  refine Decimal.foldlM_toDigits (fun n => { s with current := n, octets := s.octets + 1, sawDigit := true }) ?_ ?_
    hbyte
  · intro c hc hbound
    have hfits : ¬4 < s.octets + 1 := by omega
    simp [Pton.step, hc, hcurrent, hsaw, Nat.not_lt.mpr hbound, hfits]
  · intro n hn c hc hbound
    simp [Pton.step, hc, Nat.ne_of_gt hn, Nat.not_lt.mpr hbound]

theorem step_dot {s : Pton} (hsaw : s.sawDigit = true) (hroom : s.octets < 4) :
    s.step '.' = some { s with before := s.before ++ [UInt8.ofNat s.current], current := 0, sawDigit := false } := by
  have hne : s.octets ≠ 4 := by omega
  simp [Pton.step, hsaw, hne]

end Pton

theorem dotted_append_singleton (octets : List UInt8) (last : UInt8) :
    dotted (octets ++ [last]) =
      octets.flatMap (fun octet => Nat.toDigits 10 octet.toNat ++ ['.']) ++ Nat.toDigits 10 last.toNat := by
  unfold dotted
  induction octets with
  | nil => exact List.intercalate_singleton
  | cons octet octets ih =>
    rw [List.cons_append, List.map_cons, List.intercalate_cons_of_ne_nil (by simp), ih, List.flatMap_cons]
    simp only [List.append_assoc]

theorem isDigit_of_mem_dotted {octets : List UInt8} {c : Char} (hc : c ∈ dotted octets) :
    c.isDigit = true ∨ c = '.' := by
  unfold dotted at hc
  induction octets with
  | nil => simp at hc
  | cons octet octets ih =>
    cases octets with
    | nil =>
      rw [List.map_singleton, List.intercalate_singleton] at hc
      exact .inl (Decimal.isDigit_of_mem hc)
    | cons next rest =>
      rw [List.map_cons, List.map_cons, List.intercalate_cons_cons, List.append_assoc] at hc
      simp only [List.mem_append, List.mem_singleton] at hc
      obtain hdigit | hdot | hrest := hc
      · exact .inl (Decimal.isDigit_of_mem hdigit)
      · exact .inr hdot
      · exact ih hrest

/-- What is written is read back. -/
theorem inet_pton_dotted {octets : List UInt8} (hlength : octets.length = 4) :
    inet_pton (dotted octets) = some octets := by
  match octets, hlength with
  | [a, b, c, d], _ =>
    have htext := dotted_append_singleton [a, b, c] d
    simp only [List.cons_append, List.nil_append] at htext
    simp [inet_pton, htext, List.foldlM_append, Pton.foldlM_octet, Pton.step_dot, Pton.init]

/-- What is read is what would be written: four numbers, and no other text for them. -/
theorem dotted_of_inet_pton {src : List Char} {octets : List UInt8} (h : inet_pton src = some octets) :
    octets.length = 4 ∧ dotted octets = src := by
  rw [inet_pton, Option.bind_eq_bind, Option.bind_eq_some_iff] at h
  obtain ⟨s, hrun, hoctets⟩ := h
  rw [Option.ite_none_left_eq_some, Option.some.injEq] at hoctets
  obtain ⟨hfour, rfl⟩ := hoctets
  obtain ⟨htext, hcount, hle, hbefore, hcurrent, _⟩ := Pton.init_reads.foldlM hrun
  cases hsaw : s.sawDigit with
  | false =>
    rw [hsaw, Bool.toNat_false] at hcount
    omega
  | true =>
    rw [hsaw, Bool.toNat_true] at hcount
    have hbyte : (UInt8.ofNat s.current).toNat = s.current := by
      rw [UInt8.toNat_ofNat']
      exact Nat.mod_eq_of_lt (by omega)
    constructor
    · simp only [List.length_append, List.length_singleton]
      omega
    · rw [dotted_append_singleton, hbyte, ← List.nil_append src, htext, hsaw, if_pos rfl]

theorem length_dotted_lt {octets : List UInt8} (hlength : octets.length = 4) :
    (dotted octets).length < INET_ADDRSTRLEN := by
  match octets, hlength with
  | [a, b, c, d], _ =>
    have ha := length_digits_octet a
    have hb := length_digits_octet b
    have hc := length_digits_octet c
    have hd := length_digits_octet d
    have htext := dotted_append_singleton [a, b, c] d
    simp only [List.cons_append, List.nil_append] at htext
    rw [htext]
    simp only [List.flatMap_cons, List.flatMap_nil, List.length_append, List.length_cons, List.length_nil]
    unfold INET_ADDRSTRLEN
    omega

theorem betoh_htobe (host : Endian.Order) (n x : Nat) : betoh host n (htobe host n x) = x % 256 ^ n := by
  rw [betoh, bytes_htobe, Endian.bigValue_bigEndian]

theorem htobe_betoh (host : Endian.Order) (n x : Nat) : htobe host n (betoh host n x) = x % 256 ^ n := by
  have hbytes := Endian.bigEndian_bigValue (host.bytes n x)
  rw [host.length_bytes] at hbytes
  rw [htobe, betoh, hbytes, host.value_bytes]

theorem toNat_htons (host : Endian.Order) (x : UInt16) : (htons host x).toNat = htobe host 2 x.toNat := by
  have hlt := host.value_lt (Endian.bigEndian 2 x.toNat)
  rw [Endian.length_bigEndian] at hlt
  rw [htons, UInt16.toNat_ofNat']
  exact Nat.mod_eq_of_lt hlt

theorem toNat_ntohs (host : Endian.Order) (x : UInt16) : (ntohs host x).toNat = betoh host 2 x.toNat := by
  have hlt := Endian.bigValue_lt (host.bytes 2 x.toNat)
  rw [host.length_bytes] at hlt
  rw [ntohs, UInt16.toNat_ofNat']
  exact Nat.mod_eq_of_lt hlt

theorem ntohs_htons (host : Endian.Order) (x : UInt16) : ntohs host (htons host x) = x := by
  rw [← UInt16.toNat_inj, toNat_ntohs, toNat_htons, betoh_htobe]
  exact Nat.mod_eq_of_lt x.toNat_lt

theorem htons_ntohs (host : Endian.Order) (x : UInt16) : htons host (ntohs host x) = x := by
  rw [← UInt16.toNat_inj, toNat_htons, toNat_ntohs, htobe_betoh]
  exact Nat.mod_eq_of_lt x.toNat_lt

namespace InetAddress

theorem toIp_eq (host : Endian.Order) (a : InetAddress) : a.toIp host = dotted (host.bytes 4 a.addr_.s_addr.toNat) := by
  have hlength := length_dotted_lt (host.length_bytes 4 a.addr_.s_addr.toNat)
  rw [toIp, inet_ntop, if_neg (by omega)]

/-- The address with these four bytes in memory. -/
theorem bytes_s_addr (host : Endian.Order) {octets : List UInt8} (hlength : octets.length = 4) :
    host.bytes 4 (UInt32.ofNat (host.value octets)).toNat = octets := by
  have hlt : host.value octets < 2 ^ 32 := by
    have hlt := host.value_lt octets
    rwa [hlength] at hlt
  have hbytes := host.bytes_value octets
  rw [hlength] at hbytes
  rw [UInt32.toNat_ofNat', Nat.mod_eq_of_lt hlt, hbytes]

theorem s_addr_bytes (host : Endian.Order) (s_addr : UInt32) :
    UInt32.ofNat (host.value (host.bytes 4 s_addr.toNat)) = s_addr := by
  have hlt : s_addr.toNat < 256 ^ 4 := s_addr.toNat_lt
  rw [host.value_bytes, Nat.mod_eq_of_lt hlt, UInt32.ofNat_toNat]

theorem toIp_of_ofIp {host : Endian.Order} {ip : List Char} {port : UInt16} {a : InetAddress}
    (h : ofIp host ip port = some a) :
    a.addr_.sin_family = AF_INET ∧ a.toIp host = c_str ip ∧ a.toPort host = port := by
  rw [ofIp, Option.map_eq_some_iff] at h
  obtain ⟨octets, hpton, rfl⟩ := h
  obtain ⟨hlength, htext⟩ := dotted_of_inet_pton hpton
  refine ⟨rfl, ?_, ntohs_htons host port⟩
  rw [toIp_eq, bytes_s_addr host hlength, htext]

theorem ofIp_of_toIp {host : Endian.Order} {ip : List Char} {a : InetAddress}
    (hfamily : a.addr_.sin_family = AF_INET) (hip : a.toIp host = c_str ip) :
    ofIp host ip (a.toPort host) = some a := by
  rw [toIp_eq] at hip
  rw [ofIp, Option.map_eq_some_iff]
  refine ⟨host.bytes 4 a.addr_.s_addr.toNat, ?_, ?_⟩
  · rw [← hip]
    exact inet_pton_dotted (host.length_bytes 4 _)
  · rw [s_addr_bytes, toPort, htons_ntohs, ← hfamily]

/-- The text constructor is the inverse of `toIp()` and `toPort()`: it makes an address of exactly the texts that
addresses have, and aborts on any other. -/
theorem ofIp_eq_some_iff (host : Endian.Order) (ip : List Char) (port : UInt16) (a : InetAddress) :
    ofIp host ip port = some a ↔
      a.addr_.sin_family = AF_INET ∧ a.toIp host = c_str ip ∧ a.toPort host = port := by
  constructor
  · exact toIp_of_ofIp
  · rintro ⟨hfamily, hip, rfl⟩
    exact ofIp_of_toIp hfamily hip

/-- The address of a port on this machine, or on any interface, is the one with that text. -/
theorem ofIp_ofPort (host : Endian.Order) (port : UInt16) (loopback : Bool) :
    ofIp host (if loopback then "127.0.0.1".toList else "0.0.0.0".toList) port = some (ofPort host port loopback) := by
  have hport : (ofPort host port loopback).toPort host = port := ntohs_htons host port
  have hip : (ofPort host port loopback).toIp host =
      c_str (if loopback then "127.0.0.1".toList else "0.0.0.0".toList) := by
    rw [toIp_eq, ofPort, htonl, htobe, bytes_s_addr host (Endian.length_bigEndian 4 _)]
    cases loopback <;> decide
  have hofIp := ofIp_of_toIp rfl hip
  rwa [hport] at hofIp

theorem isDigit_of_mem_toIp {host : Endian.Order} {a : InetAddress} {c : Char} (hc : c ∈ a.toIp host) :
    c.isDigit = true ∨ c = '.' := by
  rw [toIp_eq] at hc
  exact isDigit_of_mem_dotted hc

/-- The characters of an address with its port. -/
theorem isDigit_of_mem_toIpPort {host : Endian.Order} {a : InetAddress} {c : Char} (hc : c ∈ a.toIpPort host) :
    c.isDigit = true ∨ c = '.' ∨ c = ':' := by
  simp only [toIpPort, List.append_assoc, List.mem_append, List.mem_singleton] at hc
  obtain hip | rfl | hport := hc
  · exact (isDigit_of_mem_toIp hip).imp_right .inl
  · exact .inr (.inr rfl)
  · exact .inl (Decimal.isDigit_of_mem hport)

/-- Two addresses have the same text only if they are the same host and port. -/
theorem toIpPort_inj {host : Endian.Order} {a b : InetAddress} (h : a.toIpPort host = b.toIpPort host) :
    a.addr_.s_addr = b.addr_.s_addr ∧ a.addr_.sin_port = b.addr_.sin_port := by
  have hip : ':' ∉ a.toIp host := fun hmem => by simpa using isDigit_of_mem_toIp hmem
  have hport : ':' ∉ Nat.toDigits 10 (a.toPort host).toNat := fun hmem => by simpa using Decimal.isDigit_of_mem hmem
  rw [toIpPort, toIpPort, List.append_assoc, List.append_assoc, List.singleton_append, List.singleton_append] at h
  obtain ⟨hips, _, hports⟩ := (List.append_cons_inj_of_notMem hip hport).mp h
  constructor
  · rw [toIp_eq, toIp_eq] at hips
    have hbytes := congrArg inet_pton hips
    rw [inet_pton_dotted (host.length_bytes 4 _), inet_pton_dotted (host.length_bytes 4 _), Option.some.injEq] at hbytes
    rw [← s_addr_bytes host a.addr_.s_addr, hbytes, s_addr_bytes]
  · have hvalues := congrArg (fun digits => Nat.ofDigitChars 10 digits 0) hports
    simp only [Nat.ofDigitChars_ten_toDigits, UInt16.toNat_inj] at hvalues
    rw [← htons_ntohs host a.addr_.sin_port]
    exact (congrArg (htons host) hvalues).trans (htons_ntohs host _)

end InetAddress

/-- The name of a connection tells both its ends. -/
theorem TcpConnection.name_eq_iff (host : Endian.Order) (peer local_ peer' local' : InetAddress) :
    TcpConnection.name host peer local_ = TcpConnection.name host peer' local' ↔
      (peer.addr_.s_addr = peer'.addr_.s_addr ∧ peer.addr_.sin_port = peer'.addr_.sin_port) ∧
        local_.addr_.s_addr = local'.addr_.s_addr ∧ local_.addr_.sin_port = local'.addr_.sin_port := by
  constructor
  · intro h
    have hpeer : '>' ∉ peer.toIpPort host ++ [' ', '-'] := by
      intro hmem
      rw [List.mem_append] at hmem
      obtain hmem | hmem := hmem
      · simpa using InetAddress.isDigit_of_mem_toIpPort hmem
      · simp at hmem
    have hlocal : '>' ∉ ' ' :: local_.toIpPort host := by
      intro hmem
      rw [List.mem_cons] at hmem
      obtain hmem | hmem := hmem
      · simp at hmem
      · simpa using InetAddress.isDigit_of_mem_toIpPort hmem
    have hname (a b : InetAddress) : TcpConnection.name host a b =
        (a.toIpPort host ++ [' ', '-']) ++ '>' :: ' ' :: b.toIpPort host := by
      simp [TcpConnection.name]
    rw [hname, hname] at h
    obtain ⟨hpeers, _, hlocals⟩ := (List.append_cons_inj_of_notMem hpeer hlocal).mp h
    exact ⟨InetAddress.toIpPort_inj (List.append_cancel_right hpeers),
      InetAddress.toIpPort_inj (List.cons.inj hlocals).2⟩
  · rintro ⟨⟨haddr, hport⟩, haddr', hport'⟩
    simp [TcpConnection.name, InetAddress.toIpPort, InetAddress.toIp, InetAddress.toPort, haddr, hport, haddr', hport']

end mudong.ev
