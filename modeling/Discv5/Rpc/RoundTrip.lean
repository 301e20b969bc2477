import Discv5.Rpc.Message

/-!
# The RPC codec round trip

`Message::decode` reads back what `Message::encode` writes, for every kind,
with two exceptions that are part of the code:

* a PONG whose IPv6 address embeds an IPv4 address (other than `::1`) comes
  back with the IPv4 form (`IpAddr.normalize`);
* the record loop of NODES slices each record to `payload_length + 2`
  bytes, the size of a record with a two-byte list header. A record of 259
  bytes or more (a payload of at least 256 bytes, so a three-byte header) is
  cut one byte short and the message is rejected
  (`decode_nodes_long_record`), although records of up to 300 bytes are
  valid.

The RLP codec and the record codec are parameters. What the round trip
relies on of them is `RlpCodec.Lawful`, `EnrCodec.Lawful` and
`EnrCodec.ListFramed`: a record is an RLP list, read back from its
encoding, and read by a decoder that starts with the list header.
-/

namespace Discv5

open Rust Rlp Bytes

variable {Enr : Type}

/-- Records are RLP lists: the encoding is a list header over the record's
content, and the decoder reads that header first, so it fails where the
header does. -/
structure EnrCodec.ListFramed (c : EnrCodec Enr) (rlp : RlpCodec) : Prop where
  encode_eq : ∀ e, ∃ content : List UInt8, content.length < 256 ^ 8 ∧
    c.encode e = rlp.encodeHeader ⟨true, content.length⟩ ++ content
  decode_header : ∀ bs r, c.decode bs = .ok r → ∃ h rest, rlp.decodeHeader bs = .ok (h, rest)

variable {rlp : RlpCodec}

/-- The address a PONG's IP is read back as. -/
def IpAddr.normalize : IpAddr → IpAddr
  | .v4 octets => .v4 octets
  | .v6 octets =>
    if Ipv6Addr.isLoopback octets then .v6 octets
    else
      match Ipv6Addr.toIpv4 octets with
      | some ipv4 => .v4 ipv4
      | none => .v6 octets

/-- The message `Message::decode` reads back: the PONG's IP normalised. -/
def Message.normalizeIp : Message Enr → Message Enr
  | .response ⟨id, .pong enrSeq ip port⟩ => .response ⟨id, .pong enrSeq ip.normalize port⟩
  | m => m

/-- The field conditions of the round trip: FINDNODE distances are at most
256, and every NODES record has a two-byte list header, so an encoding of
58 to 257 bytes. -/
def Message.FieldsFit (c : EnrCodec Enr) : Message Enr → Prop
  | .request ⟨_, .findNode distances⟩ => ∀ d ∈ distances, d.toNat ≤ 256
  | .response ⟨_, .nodes _ nodes⟩ =>
    ∀ e ∈ nodes, 58 ≤ (c.encode e).length ∧ (c.encode e).length ≤ 257
  | _ => True

/-- The messages the round trip is about: fields that fit, and an encoding
shorter than `2^64` bytes (every RLP length is a `u64`). -/
structure Message.WellFormed (rlp : RlpCodec) (c : EnrCodec Enr) (m : Message Enr) : Prop where
  fields : m.FieldsFit c
  small : (m.encode rlp c).length < 256 ^ 8

/-! ## The frame -/

theorem length_encodeFrame (hrlp : rlp.Lawful) (msgType : UInt8) (list : List UInt8) :
    list.length < (encodeFrame rlp msgType list).length := by
  simp only [encodeFrame, List.length_append, List.length_singleton]
  have := List.length_pos_of_ne_nil (hrlp.encodeHeader_ne_nil ⟨true, list.length⟩)
  omega

theorem three_le_length_encodeFrame (hrlp : rlp.Lawful) (msgType : UInt8) {list : List UInt8}
    (h : list ≠ []) : 3 ≤ (encodeFrame rlp msgType list).length := by
  have hh := List.length_pos_of_ne_nil (hrlp.encodeHeader_ne_nil ⟨true, list.length⟩)
  have hl := List.length_pos_of_ne_nil h
  simp only [encodeFrame, List.length_append, List.length_singleton]
  omega

/-- The frame is read back: `Message::decode` reaches the fields of the
kind with the id decoded. -/
theorem decode_encodeFrame (hrlp : rlp.Lawful) (c : EnrCodec Enr) (msgType : UInt8)
    (idBytes rest : List UInt8)
    (hsmall : (encodeFrame rlp msgType (rlp.encodeBytes idBytes ++ rest)).length < 256 ^ 8) :
    Message.decode rlp c (encodeFrame rlp msgType (rlp.encodeBytes idBytes ++ rest)) =
      Message.decodeBody rlp c msgType.toNat ⟨idBytes⟩ rest := by
  have hlist := length_encodeFrame hrlp msgType (rlp.encodeBytes idBytes ++ rest)
  have hid : idBytes.length < 256 ^ 8 := by
    have := hrlp.length_le_length_encodeBytes idBytes
    simp only [List.length_append] at hlist
    omega
  have h3 : ¬(encodeFrame rlp msgType (rlp.encodeBytes idBytes ++ rest)).length < 3 :=
    Nat.not_lt.mpr (three_le_length_encodeFrame hrlp msgType (by simp [hrlp.encodeBytes_ne_nil]))
  have hheader := hrlp.decodeHeader_encodeHeader ⟨true, (rlp.encodeBytes idBytes ++ rest).length⟩
    (rlp.encodeBytes idBytes ++ rest) (Nat.le_refl _) (by dsimp only; omega) (by simp)
  have hid' := hrlp.decodeBytes_encodeBytes idBytes rest hid
  have hidx : (index (encodeFrame rlp msgType (rlp.encodeBytes idBytes ++ rest)) 0 :
      Outcome DecoderError UInt8) = .ok msgType := by
    simp [index, encodeFrame]
  have hdrop : (encodeFrame rlp msgType (rlp.encodeBytes idBytes ++ rest)).drop 1 =
      rlp.encodeHeader ⟨true, (rlp.encodeBytes idBytes ++ rest).length⟩ ++
        (rlp.encodeBytes idBytes ++ rest) := by
    simp [encodeFrame]
  simp only [Message.decode, h3, if_neg not_false, hidx, Outcome.ok_bind, hdrop, liftRlp, hheader,
    Outcome.ofExcept_ok, hid']
  simp

/-! ## The fields of each kind -/

theorem toNat_lt_pow_eight (x : UInt64) : x.toNat < 256 ^ 8 := by
  have := x.toNat_lt
  simpa using this

theorem decodeUint64_encode (hrlp : rlp.Lawful) (x : UInt64) (rest : List UInt8) :
    rlp.decodeUint 8 (rlp.encodeUint x.toNat ++ rest) = .ok (x.toNat, rest) :=
  hrlp.decodeUint_encodeUint _ 8 rest (toNat_lt_pow_eight x) (Nat.le_refl 8)

theorem decodeBody_ping (hrlp : rlp.Lawful) (c : EnrCodec Enr) (id : RequestId) (enrSeq : UInt64) :
    Message.decodeBody rlp c 1 id (rlp.encodeUint enrSeq.toNat) =
      .ok (.request ⟨id, .ping enrSeq⟩) := by
  have h := decodeUint64_encode hrlp enrSeq []
  rw [List.append_nil] at h
  simp [Message.decodeBody, liftRlp, h]

theorem decodeBody_talkRequest (hrlp : rlp.Lawful) (c : EnrCodec Enr) (id : RequestId)
    (protocol request : List UInt8) (hp : protocol.length < 256 ^ 8) (hr : request.length < 256 ^ 8) :
    Message.decodeBody rlp c 5 id (rlp.encodeBytes protocol ++ rlp.encodeBytes request) =
      .ok (.request ⟨id, .talk protocol request⟩) := by
  have h₁ := hrlp.decodeBytes_encodeBytes protocol (rlp.encodeBytes request) hp
  have h₂ := hrlp.decodeBytes_encodeBytes request [] hr
  rw [List.append_nil] at h₂
  simp [Message.decodeBody, liftRlp, h₁, h₂]

theorem decodeBody_talkResponse (hrlp : rlp.Lawful) (c : EnrCodec Enr) (id : RequestId)
    (response : List UInt8) (hr : response.length < 256 ^ 8) :
    Message.decodeBody rlp c 6 id (rlp.encodeBytes response) = .ok (.response ⟨id, .talk response⟩) := by
  have h := hrlp.decodeBytes_encodeBytes response [] hr
  rw [List.append_nil] at h
  simp [Message.decodeBody, liftRlp, h]

theorem decodeBody_findNode (hrlp : rlp.Lawful) (c : EnrCodec Enr) (id : RequestId)
    (distances : List UInt64) (hd : ∀ d ∈ distances, d.toNat ≤ 256)
    (hsmall : (distances.flatMap fun d => rlp.encodeUint d.toNat).length < 256 ^ 8) :
    Message.decodeBody rlp c 3 id (rlp.encodeList (distances.map fun d => rlp.encodeUint d.toNat)) =
      .ok (.request ⟨id, .findNode distances⟩) := by
  -- the distances go through the list codec as the naturals they hold
  have henc : distances.map (fun d => rlp.encodeUint d.toNat) =
      (distances.map UInt64.toNat).map rlp.encodeUint := by
    simp [List.map_map, Function.comp_def]
  have hlist : rlp.decodeUintList (rlp.encodeList ((distances.map UInt64.toNat).map rlp.encodeUint) ++ []) =
      .ok (distances.map UInt64.toNat, []) :=
    hrlp.decodeUintList_encodeList _ [] (fun x hx => by
      obtain ⟨d, -, rfl⟩ := List.mem_map.mp hx
      exact toNat_lt_pow_eight d) (by simpa [List.flatMap_map] using hsmall)
  rw [List.append_nil] at hlist
  have hfit : ¬∃ d, d ∈ distances ∧ 256 < d.toNat := fun ⟨d, hm, hlt⟩ => by
    have := hd d hm
    omega
  have hmap : distances.map (UInt64.ofNat ∘ UInt64.toNat) = distances := by
    have hcomp : (UInt64.ofNat ∘ UInt64.toNat) = fun d => d := funext fun d => by simp
    rw [hcomp, List.map_id']
  rw [List.map_map] at hlist
  rw [henc, List.map_map]
  simp [Message.decodeBody, liftRlp, hlist, hfit, hmap]

/-- The octets of an address. -/
def IpAddr.octets : IpAddr → List UInt8
  | .v4 octets => octets.toList
  | .v6 octets => octets.toList

theorem IpAddr.encode_eq (ip : IpAddr) : ip.encode rlp = rlp.encodeBytes ip.octets := by
  cases ip <;> rfl

theorem IpAddr.length_octets_lt (ip : IpAddr) : ip.octets.length < 256 ^ 8 := by
  cases ip with
  | v4 octets => simp [IpAddr.octets, octets.length_toList]
  | v6 octets => simp [IpAddr.octets, octets.length_toList]

/-- The address bytes of a PONG are read back as the normalised address. -/
theorem decodeIp_octets (ip : IpAddr) : decodeIp ip.octets = .ok ip.normalize := by
  cases ip with
  | v4 octets =>
    simp [decodeIp, IpAddr.octets, IpAddr.normalize, octets.length_toList]
  | v6 octets =>
    obtain ⟨l, hl⟩ := octets
    show decodeIp l = _
    unfold decodeIp IpAddr.normalize
    rw [dif_neg (show ¬l.length = 4 by omega), dif_pos hl]
    by_cases hloop : Ipv6Addr.isLoopback ⟨l, hl⟩ = true
    · simp [hloop]
    · cases hv4 : Ipv6Addr.toIpv4 ⟨l, hl⟩ <;> simp [hloop, hv4]

theorem decodeBody_pong (hrlp : rlp.Lawful) (c : EnrCodec Enr) (id : RequestId) (enrSeq : UInt64)
    (ip : IpAddr) (port : NonZeroU16) :
    Message.decodeBody rlp c 2 id
        (rlp.encodeUint enrSeq.toNat ++ ip.encode rlp ++ rlp.encodeUint port.val.toNat) =
      .ok (.response ⟨id, .pong enrSeq ip.normalize port⟩) := by
  have hseq := decodeUint64_encode hrlp enrSeq (ip.encode rlp ++ rlp.encodeUint port.val.toNat)
  have hip := hrlp.decodeBytes_encodeBytes ip.octets (rlp.encodeUint port.val.toNat) ip.length_octets_lt
  have hport : rlp.decodeUint 2 (rlp.encodeUint port.val.toNat) = .ok (port.val.toNat, []) := by
    have hlt : port.val.toNat < 256 ^ 2 := by
      have := port.val.toNat_lt
      simpa using this
    simpa using hrlp.decodeUint_encodeUint _ 2 [] hlt (by decide)
  rw [← IpAddr.encode_eq] at hip
  obtain ⟨val, hne⟩ := port
  simp [Message.decodeBody, liftRlp, List.append_assoc, hseq, hip, decodeIp_octets, hport, hne]

/-! ## NODES -/

section Nodes

variable {c : EnrCodec Enr}

/-- A record of 58 to 257 bytes has a two-byte list header over its content. -/
theorem encode_of_two_byte_header (hrlp : rlp.Lawful) (hf : c.ListFramed rlp) (e : Enr)
    (h₁ : 58 ≤ (c.encode e).length) (h₂ : (c.encode e).length ≤ 257) :
    ∃ content : List UInt8, c.encode e = rlp.encodeHeader ⟨true, content.length⟩ ++ content ∧
      (c.encode e).length = content.length + 2 ∧ content.length < 256 ^ 8 := by
  obtain ⟨content, hbig, henc⟩ := hf.encode_eq e
  have hlen := congrArg List.length henc
  rw [List.length_append, hrlp.length_encodeHeader] at hlen
  refine ⟨content, henc, ?_, hbig⟩
  dsimp only at hlen
  split at hlen
  · omega
  · -- the content is at least 56 bytes; a content of 256 bytes or more needs two length bytes
    by_cases hlong : 256 ≤ content.length
    · have := two_le_byteLength hlong
      omega
    · rw [byteLength_eq_one (by omega) (by omega)] at hlen
      omega

theorem decodeNodesLoop_flatMap (hrlp : rlp.Lawful) (hc : c.Lawful) (hf : c.ListFramed rlp) :
    ∀ (nodes : List Enr) (fuel : Nat), (nodes.flatMap c.encode).length ≤ fuel →
      (∀ e ∈ nodes, 58 ≤ (c.encode e).length ∧ (c.encode e).length ≤ 257) →
      decodeNodesLoop rlp c fuel (nodes.flatMap c.encode) = .ok (nodes, [])
  | [], fuel, _, _ => by cases fuel <;> rfl
  | e :: es, fuel, hfuel, hsize => by
    obtain ⟨h₁, h₂⟩ := hsize e (List.mem_cons_self ..)
    obtain ⟨content, henc, hlen, hbig⟩ := encode_of_two_byte_header hrlp hf e h₁ h₂
    rw [List.flatMap_cons] at hfuel ⊢
    simp only [List.length_append] at hfuel
    obtain ⟨f, rfl⟩ : ∃ f, fuel = f + 1 := ⟨fuel - 1, by omega⟩
    obtain ⟨b, bs, hcons⟩ : ∃ b bs, c.encode e ++ es.flatMap c.encode = b :: bs :=
      List.exists_cons_of_ne_nil (by simp [hc.encode_ne_nil])
    have hdec : rlp.decodeHeader (c.encode e ++ es.flatMap c.encode) =
        .ok (⟨true, content.length⟩, content ++ es.flatMap c.encode) := by
      rw [henc, List.append_assoc]
      exact hrlp.decodeHeader_encodeHeader _ _ (by simp) hbig (by simp)
    have htake : (c.encode e ++ es.flatMap c.encode).take (content.length + 2) = c.encode e :=
      List.take_left' hlen
    have hrec : c.decode (c.encode e) = .ok (e, []) := by
      simpa using hc.decode_encode e []
    have ih := decodeNodesLoop_flatMap hrlp hc hf es f (by omega)
      (fun x hx => hsize x (List.mem_cons_of_mem _ hx))
    rw [hcons, decodeNodesLoop, ← hcons]
    · simp [liftRlp, hdec, htake, hrec, advance_append, ih]
      -- the record and its two-byte header fit in the payload
      omega
    · exact List.cons_ne_nil b bs

/-- Both branches of the NODES list encoding write a list header over the
concatenated records. -/
theorem encodeNodes_eq (hrlp : rlp.Lawful) (c : EnrCodec Enr) (nodes : List Enr) :
    (if !nodes.isEmpty then
        rlp.encodeHeader ⟨true, (nodes.flatMap c.encode).length⟩ ++ nodes.flatMap c.encode
      else rlp.encodeList (nodes.map c.encode)) =
      rlp.encodeHeader ⟨true, (nodes.flatMap c.encode).length⟩ ++ nodes.flatMap c.encode := by
  split
  · rfl
  · -- the empty list: `Vec::encode` writes the same empty list header
    rename_i hne
    have hnil : nodes = [] := by simpa using hne
    simp [hnil, hrlp.encodeList_eq]

/-- The NODES arm up to its record loop. -/
theorem decodeBody_nodes_eq (hrlp : rlp.Lawful) (id : RequestId) (total : UInt64) (out : List UInt8)
    (hsmall : out.length < 256 ^ 8) :
    Message.decodeBody rlp c 4 id
        (rlp.encodeUint total.toNat ++ (rlp.encodeHeader ⟨true, out.length⟩ ++ out)) =
      (do
        let (nodes, payload) ← decodeNodesLoop rlp c out.length out
        if payload ≠ [] then throw (.custom "Payload should be empty")
        pure (.response ⟨id, .nodes total nodes⟩)) := by
  have htotal := decodeUint64_encode hrlp total (rlp.encodeHeader ⟨true, out.length⟩ ++ out)
  have hheader := hrlp.decodeHeader_encodeHeader ⟨true, out.length⟩ out (Nat.le_refl _) hsmall (by simp)
  simp only [Message.decodeBody, liftRlp, htotal, Outcome.ofExcept_ok, Outcome.ok_bind, hheader]
  simp

theorem decodeBody_nodes (hrlp : rlp.Lawful) (hc : c.Lawful) (hf : c.ListFramed rlp) (id : RequestId)
    (total : UInt64) (nodes : List Enr)
    (hsize : ∀ e ∈ nodes, 58 ≤ (c.encode e).length ∧ (c.encode e).length ≤ 257)
    (hsmall : (nodes.flatMap c.encode).length < 256 ^ 8) :
    Message.decodeBody rlp c 4 id (rlp.encodeUint total.toNat ++
        (rlp.encodeHeader ⟨true, (nodes.flatMap c.encode).length⟩ ++ nodes.flatMap c.encode)) =
      .ok (.response ⟨id, .nodes total nodes⟩) := by
  rw [decodeBody_nodes_eq hrlp id total _ hsmall,
    decodeNodesLoop_flatMap hrlp hc hf nodes _ (Nat.le_refl _) hsize]
  simp

/-- A record of 259 bytes or more at the front of the payload stops the
record loop with an error: its content is at least 256 bytes, so its list
header has three bytes, and the slice of `payload_length + 2` bytes misses
the record's last byte. -/
theorem decodeNodesLoop_long_record (hrlp : rlp.Lawful) (hf : c.ListFramed rlp) (e : Enr)
    (hlong : 259 ≤ (c.encode e).length) (rest : List UInt8) (fuel : Nat) :
    ∃ err, decodeNodesLoop rlp c (fuel + 1) (c.encode e ++ rest) = .err err := by
  obtain ⟨content, hbig, henc⟩ := hf.encode_eq e
  have hlen := congrArg List.length henc
  rw [List.length_append, hrlp.length_encodeHeader] at hlen
  dsimp only at hlen
  -- the content is at least 256 bytes, and the header at least three
  have hcontent : 256 ≤ content.length := by
    split at hlen
    · omega
    · by_cases h : 256 ≤ content.length
      · exact h
      · rw [byteLength_eq_one (by omega) (by omega)] at hlen
        omega
  have hheader : 2 ≤ byteLength content.length := two_le_byteLength hcontent
  have hk : byteLength content.length ≤ 8 := byteLength_le hbig
  rw [if_neg (by omega)] at hlen
  have hdec : rlp.decodeHeader (c.encode e ++ rest) = .ok (⟨true, content.length⟩, content ++ rest) := by
    rw [henc, List.append_assoc]
    exact hrlp.decodeHeader_encodeHeader _ _ (by simp) hbig (by simp)
  -- the slice is the header followed by less than the content
  have hslice : (c.encode e ++ rest).take (content.length + 2) =
      rlp.encodeHeader ⟨true, content.length⟩ ++
        content.take (content.length + 1 - byteLength content.length) := by
    rw [List.take_append_of_le_length (by omega), henc, List.take_append, hrlp.length_encodeHeader]
    simp only [show ¬content.length < 56 by omega, if_false, List.take_of_length_le
      (show (rlp.encodeHeader ⟨true, content.length⟩).length ≤ content.length + 2 by
        rw [hrlp.length_encodeHeader]; simp only [show ¬content.length < 56 by omega, if_false]; omega)]
    congr 2
    omega
  obtain ⟨err₀, hshort⟩ := hrlp.decodeHeader_encodeHeader_short content.length
    (content.take (content.length + 1 - byteLength content.length)) (by simp; omega) hbig
  have hfail : ∃ err, c.decode ((c.encode e ++ rest).take (content.length + 2)) = .error err := by
    cases hd : c.decode ((c.encode e ++ rest).take (content.length + 2)) with
    | error err => exact ⟨err, rfl⟩
    | ok r =>
      obtain ⟨h, r', hh⟩ := hf.decode_header _ r hd
      rw [hslice, hshort] at hh
      cases hh
  obtain ⟨err, herr⟩ := hfail
  obtain ⟨b, bs, hcons⟩ : ∃ b bs, c.encode e ++ rest = b :: bs :=
    List.exists_cons_of_ne_nil (by simp [henc, hrlp.encodeHeader_ne_nil])
  refine ⟨err, ?_⟩
  rw [hcons, decodeNodesLoop, ← hcons]
  · simp [liftRlp, hdec, herr]
    omega
  · exact List.cons_ne_nil b bs

end Nodes

/-! ## The round trip -/

theorem length_lt_of_encodeFrame (hrlp : rlp.Lawful) {msgType : UInt8} {list : List UInt8}
    (h : (encodeFrame rlp msgType list).length < 256 ^ 8) : list.length < 256 ^ 8 :=
  Nat.lt_trans (length_encodeFrame hrlp msgType list) h

/-- The RPC codec round trip: every well-formed message is read back, the
address of a PONG normalised. -/
theorem Message.decode_encode {c : EnrCodec Enr} (hrlp : rlp.Lawful) (hc : c.Lawful)
    (hf : c.ListFramed rlp) (m : Message Enr) (hm : m.WellFormed rlp c) :
    Message.decode rlp c (m.encode rlp c) = .ok m.normalizeIp := by
  obtain ⟨hfields, hsmall⟩ := hm
  -- each kind: the frame is read back, then the fields of the kind
  cases m with
  | request r =>
    obtain ⟨⟨idBytes⟩, body⟩ := r
    cases body with
    | ping enrSeq =>
      simp only [Message.encode, Request.encode] at hsmall ⊢
      rw [decode_encodeFrame hrlp c _ idBytes _ hsmall]
      exact decodeBody_ping hrlp c _ enrSeq
    | findNode distances =>
      simp only [Message.encode, Request.encode] at hsmall ⊢
      rw [decode_encodeFrame hrlp c _ idBytes _ hsmall]
      have hbound : (distances.flatMap fun d => rlp.encodeUint d.toNat).length < 256 ^ 8 := by
        have := length_lt_of_encodeFrame hrlp hsmall
        simp only [hrlp.encodeList_eq, List.length_append] at this
        simp only [List.flatMap_def]
        omega
      exact decodeBody_findNode hrlp c _ distances hfields hbound
    | talk protocol request =>
      simp only [Message.encode, Request.encode, List.append_assoc] at hsmall ⊢
      rw [decode_encodeFrame hrlp c _ idBytes _ hsmall]
      have hp := hrlp.length_le_length_encodeBytes protocol
      have hr := hrlp.length_le_length_encodeBytes request
      have hlist := length_lt_of_encodeFrame hrlp hsmall
      simp only [List.length_append] at hlist
      exact decodeBody_talkRequest hrlp c _ protocol request (by omega) (by omega)
  | response r =>
    obtain ⟨⟨idBytes⟩, body⟩ := r
    cases body with
    | pong enrSeq ip port =>
      simp only [Message.encode, Response.encode, List.append_assoc] at hsmall ⊢
      rw [decode_encodeFrame hrlp c _ idBytes _ hsmall, ← List.append_assoc]
      exact decodeBody_pong hrlp c _ enrSeq ip port
    | nodes total nodes =>
      simp only [Message.encode, Response.encode, encodeNodes_eq hrlp, List.append_assoc] at hsmall ⊢
      rw [decode_encodeFrame hrlp c _ idBytes _ hsmall]
      have hbound : (nodes.flatMap c.encode).length < 256 ^ 8 := by
        have := length_lt_of_encodeFrame hrlp hsmall
        simp only [List.length_append] at this
        omega
      exact decodeBody_nodes hrlp hc hf _ total nodes hfields hbound
    | talk response =>
      simp only [Message.encode, Response.encode] at hsmall ⊢
      rw [decode_encodeFrame hrlp c _ idBytes _ hsmall]
      have hr := hrlp.length_le_length_encodeBytes response
      have hlist := length_lt_of_encodeFrame hrlp hsmall
      simp only [List.length_append] at hlist
      exact decodeBody_talkResponse hrlp c _ response (by omega)

/-! ## Records with a three-byte header -/

/-- A NODES response with a record of 259 bytes or more is rejected by
`Message::decode`, although records of up to 300 bytes are valid. -/
theorem decode_nodes_long_record (hrlp : rlp.Lawful) {c : EnrCodec Enr} (hf : c.ListFramed rlp)
    (id : RequestId) (total : UInt64) (e : Enr) (hlong : 259 ≤ (c.encode e).length)
    (hsmall : ((Message.response ⟨id, .nodes total [e]⟩ : Message Enr).encode rlp c).length < 256 ^ 8) :
    ∃ err, Message.decode rlp c ((Message.response ⟨id, .nodes total [e]⟩ : Message Enr).encode rlp c) =
      .err err := by
  obtain ⟨idBytes⟩ := id
  simp only [Message.encode, Response.encode, encodeNodes_eq hrlp, List.append_assoc] at hsmall ⊢
  rw [decode_encodeFrame hrlp c _ idBytes _ hsmall]
  have hout : ([e].flatMap c.encode).length < 256 ^ 8 := by
    have := length_lt_of_encodeFrame hrlp hsmall
    simp only [List.length_append] at this
    omega
  change ∃ err, Message.decodeBody rlp c 4 ⟨idBytes⟩ _ = .err err
  rw [decodeBody_nodes_eq hrlp _ total _ hout]
  have hflat : [e].flatMap c.encode = c.encode e ++ [] := by simp
  obtain ⟨fuel, hfuel⟩ : ∃ fuel, ([e].flatMap c.encode).length = fuel + 1 :=
    ⟨(c.encode e).length - 1, by simp; omega⟩
  obtain ⟨err, herr⟩ := decodeNodesLoop_long_record hrlp hf e hlong [] fuel
  refine ⟨err, ?_⟩
  rw [hfuel, hflat, herr]
  rfl

/-! ## Record codecs of fixed size -/

/-- Records of exactly `n` content bytes, coded as RLP lists: record codecs
of the kind the round trip assumes, over any RLP codec. -/
def fixedRecordCodec (rlp : RlpCodec) (n : Nat) : EnrCodec (Arr UInt8 n) where
  encode r := rlp.encodeHeader ⟨true, n⟩ ++ r.toList
  decode bs :=
    match rlp.decodeHeader bs with
    | .error e => .error e
    | .ok (h, rest) =>
      if hh : h = ⟨true, n⟩ ∧ n ≤ rest.length then
        .ok (⟨rest.take n, by rw [List.length_take]; omega⟩, rest.drop n)
      else .error .unexpectedLength
  parseNodeId := NodeId.parse32

theorem fixedRecordCodec_lawful (hrlp : rlp.Lawful) {n : Nat} (hn : n < 256 ^ 8) :
    (fixedRecordCodec rlp n).Lawful where
  decode_encode r rest := by
    obtain ⟨content, hc⟩ := r
    have hd := hrlp.decodeHeader_encodeHeader ⟨true, n⟩ (content ++ rest) (by simp [hc]) hn (by simp)
    have hfit : (⟨true, n⟩ : Header) = ⟨true, n⟩ ∧ n ≤ (content ++ rest).length := ⟨rfl, by simp [hc]⟩
    simp only [fixedRecordCodec, List.append_assoc, hd, true_and]
    rw [dif_pos hfit.2]
    simp [List.take_left' hc, List.drop_left' hc]
  encode_ne_nil r := by simp [fixedRecordCodec, hrlp.encodeHeader_ne_nil]
  parseNodeId_raw := NodeId.parse32_raw

theorem fixedRecordCodec_listFramed {n : Nat} (hn : n < 256 ^ 8) :
    (fixedRecordCodec rlp n).ListFramed rlp where
  encode_eq r := ⟨r.toList, by simpa [r.length_toList] using hn, by simp [fixedRecordCodec, r.length_toList]⟩
  decode_header bs r hd := by
    simp only [fixedRecordCodec] at hd
    split at hd
    · cases hd
    · rename_i h rest hdec
      exact ⟨h, rest, hdec⟩

theorem fixedRecordCodec_length (n : Nat) (r : Arr UInt8 n) :
    ((fixedRecordCodec rlp n).encode r).length = (rlp.encodeHeader ⟨true, n⟩).length + n := by
  simp [fixedRecordCodec, r.length_toList]

/-- A zero record of 256 content bytes, whose list header has three bytes. -/
def wideZeroRecord : Arr UInt8 256 := ⟨List.replicate 256 0, List.length_replicate⟩

/-- The NODES response with `wideZeroRecord` (259 bytes) is rejected. -/
theorem decode_nodes_wide_zero_record :
    259 ≤ ((fixedRecordCodec .reference 256).encode wideZeroRecord).length ∧
      ((Message.response ⟨⟨[1]⟩, .nodes 1 [wideZeroRecord]⟩ : Message (Arr UInt8 256)).encode .reference
        (fixedRecordCodec .reference 256)).length < 256 ^ 8 ∧
      ∃ err, Message.decode .reference (fixedRecordCodec .reference 256)
        ((Message.response ⟨⟨[1]⟩, .nodes 1 [wideZeroRecord]⟩ : Message (Arr UInt8 256)).encode
          .reference (fixedRecordCodec .reference 256)) = .err err := by
  have h₀ : byteLength 256 = 2 := by decide
  have h₁ : byteLength 259 = 2 := by decide
  have h₂ : byteLength 264 = 2 := by decide
  have hlen : ((fixedRecordCodec .reference 256).encode wideZeroRecord).length = 259 := by
    simp [fixedRecordCodec_length, Header.length_encode, h₀]
  have hlong : 259 ≤ ((fixedRecordCodec .reference 256).encode wideZeroRecord).length :=
    Nat.le_of_eq hlen.symm
  have hsmall : ((Message.response ⟨⟨[1]⟩, .nodes 1 [wideZeroRecord]⟩ : Message (Arr UInt8 256)).encode
      .reference (fixedRecordCodec .reference 256)).length < 256 ^ 8 := by
    simp [Message.encode, Response.encode, encodeFrame, Header.length_encode, hlen, encodeBytes, encodeUint,
      h₁, h₂]
  exact ⟨hlong, hsmall, decode_nodes_long_record RlpCodec.reference_lawful
    (fixedRecordCodec_listFramed (by decide)) ⟨[1]⟩ 1 wideZeroRecord hlong hsmall⟩

end Discv5
