import Discv5.Service.Nodes
import Discv5.Handler.Session
import Discv5.Handler.KeyAgreement
import Discv5.Packet.RoundTrip
import Discv5.Rpc.RoundTrip
import Discv5.Kbucket.Filter

/-!
# Do NODES responses fit in a packet?

`send_nodes_response` packs records until they reach `MAX_PACKET_SIZE - 104`
bytes, and counts 104 bytes for the rest of the packet: the IV and the
header of a message packet (16 and 55 bytes), the GCM tag (16), and 17 for
the request id, the total and the RLP headers. A sealed message packet is
its plaintext plus 87 bytes (`length_encode_encryptMessage`), and the NODES
encoding of `L` bytes of records with an id of `k` bytes is at most
`L + k + 8` bytes when the total and `L` are small
(`Response.length_encode_nodes`). So the estimate holds for request ids of
at most nine bytes (`nodes_responses_fit_packet`), but `Message::decode`
takes ids of any length: five 235-byte records answering a ten-byte id make
a packet of 1281 bytes, which the receiver's `Packet::decode` refuses
(`nodes_response_exceeds_packet`).
-/

namespace Discv5.Service

open Rust Rlp Bytes Kbucket Crypto

variable {Enr Sk Pk : Type} {rlp : RlpCodec}

/-! ## Sizes -/

/-- The NODES encoding: a type byte and a list header over the id, the
total and the list of records. -/
theorem Response.length_encode_nodes (hrlp : rlp.Lawful) (c : EnrCodec Enr) (id : RequestId)
    (total : UInt64) (nodes : List Enr) :
    ((⟨id, .nodes total nodes⟩ : Response Enr).encode rlp c).length =
      let records := (nodes.flatMap c.encode).length
      let fields := (rlp.encodeBytes id.bytes).length + (rlp.encodeUint total.toNat).length +
        (rlp.encodeHeader ⟨true, records⟩).length + records
      1 + (rlp.encodeHeader ⟨true, fields⟩).length + fields := by
  simp only [Response.encode, Response.msgType, encodeNodes_eq hrlp, encodeFrame, List.length_append,
    List.length_singleton, Nat.add_assoc]

/-- A NODES response with an id of at most nine bytes, a one-byte total and
records below the budget encodes to at most 1193 bytes. -/
theorem length_encode_nodes_le (hrlp : rlp.Lawful) (c : EnrCodec Enr) {id : RequestId} {total : UInt64}
    {nodes : List Enr} (hid : id.bytes.length ≤ 9) (htotal : total.toNat < 0x80)
    (hrecords : (nodes.flatMap c.encode).length < recordBudget) :
    ((⟨id, .nodes total nodes⟩ : Response Enr).encode rlp c).length ≤ 1193 := by
  have hbudget : recordBudget = 1176 := rfl
  have hidLen := hrlp.length_encodeBytes_le (show id.bytes.length < 56 by omega)
  have htotalLen := hrlp.length_encodeUint_of_lt htotal
  have hrecordsHeader := hrlp.length_encodeHeader_le_three true
    (show (nodes.flatMap c.encode).length < 256 ^ 2 by omega)
  rw [Response.length_encode_nodes hrlp]
  dsimp only
  -- the fields take at most 1189 bytes, so their header is at most three
  have hfieldsHeader := hrlp.length_encodeHeader_le_three true
    (show (rlp.encodeBytes id.bytes).length + (rlp.encodeUint total.toNat).length +
      (rlp.encodeHeader ⟨true, (nodes.flatMap c.encode).length⟩).length +
        (nodes.flatMap c.encode).length < 256 ^ 2 by omega)
  omega

section Seal

variable (s : Suite Sk Pk) (P : ProtocolIdentity) (c : EnrCodec Enr)

/-- A sealed message packet is its plaintext, the 16-byte tag, and 71 bytes
of IV and header. -/
theorem length_encode_encryptMessage (hs : s.aesGcm.Correct 16) {session : Session} {srcId : NodeId}
    {message : List UInt8} {randomNonce : Arr UInt8 8} {iv : BitVec 128} {packet : Packet Enr}
    {session' : Session}
    (h : Session.encryptMessage s P c session srcId message randomNonce iv = (.ok packet, session'))
    (aesCtr : List UInt8 → List UInt8 → Nat → UInt8) (dstId : NodeId) :
    (packet.encode P c aesCtr dstId).length = 87 + message.length := by
  unfold Session.encryptMessage at h
  dsimp only at h
  split at h
  · rename_i cipher hcipher
    simp only [Prod.mk.injEq, Except.ok.injEq] at h
    obtain ⟨rfl, -⟩ := h
    -- the cipher adds its tag to the plaintext
    have hlen : cipher.length = message.length + 16 := by
      unfold Crypto.encryptMessage at hcipher
      split at hcipher
      · rename_i c' hc'
        cases hcipher
        exact hs.length_encrypt _ _ _ _ _ hc'
      · cases hcipher
    rw [Packet.length_encode]
    simp [PacketKind.encode, ivLength, staticHeaderLength, hlen, srcId.raw.length_toList]
    omega
  · simp at h

/-- A cipher that never fails seals every message. -/
theorem encryptMessage_ok (hsome : ∀ k n m ad, (s.aesGcm.encrypt k n m ad).isSome) (session : Session)
    (srcId : NodeId) (message : List UInt8) (randomNonce : Arr UInt8 8) (iv : BitVec 128) :
    ∃ packet session',
      Session.encryptMessage s P c session srcId message randomNonce iv = (.ok packet, session') := by
  unfold Session.encryptMessage
  dsimp only
  split
  · exact ⟨_, _, rfl⟩
  · rename_i e he
    unfold Crypto.encryptMessage at he
    split at he
    · cases he
    · rename_i hnone
      exact absurd hnone (Option.isSome_iff_ne_none.mp (hsome _ _ _ _))

end Seal

/-! ## The estimate holds for short request ids -/

/-- With records of at most 300 bytes, `max_nodes_response` below 127 and a
request id of at most nine bytes, `send_nodes_response` answers with one
empty response, or with responses that chunk the records to send (in order,
none empty, each below the budget) under the number of responses as total;
every one of them sealed as a message packet fits `MAX_PACKET_SIZE`. -/
theorem nodes_responses_fit_packet (s : Suite Sk Pk) (hs : s.aesGcm.Correct 16) (P : ProtocolIdentity)
    (hrlp : rlp.Lawful) (c : EnrCodec Enr) (aesCtr : List UInt8 → List UInt8 → Nat → UInt8) (localEnr : Enr)
    {kbuckets : KBucketsTable Enr} (hinv : kbuckets.Inv)
    (hsize : kbuckets.NodesSat fun n => (c.encode n.value).length ≤ 300)
    (hlocal : (c.encode localEnr).length ≤ 300) {maxNodesResponse : Nat} (hm : 0 < maxNodesResponse)
    (hm' : maxNodesResponse < 127) (now : Nat) (nodeAddress : NodeAddress) {rpcId : RequestId}
    (hid : rpcId.bytes.length ≤ 9) (distances : List UInt64) :
    ∃ nodesToSend responses t',
      findNodesToSend localEnr maxNodesResponse now kbuckets nodeAddress distances =
        some (nodesToSend, t') ∧
      sendNodesResponse c localEnr maxNodesResponse now kbuckets nodeAddress rpcId distances =
        some (responses, t') ∧
      ((nodesToSend = [] ∧ responses = [⟨rpcId, .nodes 1 []⟩]) ∨
        ∃ chunks : List (List Enr),
          responses = chunks.map (fun nodes => ⟨rpcId, .nodes (UInt64.ofNat chunks.length) nodes⟩) ∧
          Chunking (fun e => (c.encode e).length) recordBudget nodesToSend chunks) ∧
      ∀ r ∈ responses, ∀ (session : Session) (srcId : NodeId) (randomNonce : Arr UInt8 8)
        (iv : BitVec 128) (packet : Packet Enr) (session' : Session) (dstId : NodeId),
        Session.encryptMessage s P c session srcId (r.encode rlp c) randomNonce iv = (.ok packet, session') →
        (packet.encode P c aesCtr dstId).length ≤ maxPacketSize := by
  have hsome : (findNodesToSend localEnr maxNodesResponse now kbuckets nodeAddress distances).isSome :=
    findNodesToSend_isSome hinv nodeAddress distances
  obtain ⟨⟨nodes, t'⟩, hfind⟩ := Option.isSome_iff_exists.mp hsome
  have hbudget : recordBudget = 1176 := rfl
  -- every record to send is ours or one of the table's, so at most 300 bytes
  have hsmall : ∀ e ∈ nodes, (c.encode e).length < recordBudget := by
    obtain ⟨hsat', -, -, hmem⟩ := mem_findNodesToSend hinv hsize hfind
    intro e he
    rcases hmem e he with ⟨rfl, -⟩ | ⟨_, -, -, -, n, hn, -, rfl⟩
    · omega
    · have := hsat'.of_mem_nodesAtDistance hn
      omega
  have hcount := length_findNodesToSend_le hinv hm hfind
  -- what each response can be: its records below the budget, its total below `0x80`
  have hfit : ∀ r ∈ nodesResponses c rpcId nodes, ∃ total rs, r = ⟨rpcId, .nodes total rs⟩ ∧
      total.toNat < 0x80 ∧ (rs.flatMap c.encode).length < recordBudget := by
    by_cases hne : nodes = []
    · subst hne
      intro r hr
      simp only [nodesResponses, List.isEmpty_nil, if_true, List.mem_singleton] at hr
      exact ⟨1, [], hr, by decide, by simp [hbudget]⟩
    · obtain ⟨chunks, hresp, hchunk⟩ := nodesResponses_chunking c rpcId hne hsmall
      have hlen := hchunk.length_le
      intro r hr
      rw [hresp] at hr
      obtain ⟨rs, hrs, rfl⟩ := List.mem_map.mp hr
      refine ⟨_, rs, rfl, ?_, ?_⟩
      · rw [UInt64.toNat_ofNat']
        omega
      · have := hchunk.weight_lt rs hrs
        simpa [Chunking.weight, List.length_flatMap] using this
  refine ⟨nodes, _, t', hfind, sendNodesResponse_eq_some.mpr ⟨nodes, hfind, rfl⟩, ?_, ?_⟩
  · by_cases hne : nodes = []
    · exact .inl ⟨hne, by simp [nodesResponses, hne]⟩
    · exact .inr (nodesResponses_chunking c rpcId hne hsmall)
  · intro r hr session srcId randomNonce iv packet session' dstId hseal
    obtain ⟨total, rs, rfl, htotal, hrecords⟩ := hfit r hr
    rw [length_encode_encryptMessage s P c hs hseal]
    have := length_encode_nodes_le hrlp c hid htotal hrecords
    simp only [maxPacketSize]
    omega

/-! ## A ten-byte request id -/

/-- The record of 233 zero bytes, 235 bytes once encoded. -/
def zeroRecord : Arr UInt8 233 := ⟨List.replicate 233 0, List.length_replicate⟩

/-- A request id of ten bytes, which `Message::decode` accepts. -/
def tenByteId : RequestId := ⟨List.replicate 10 1⟩

/-- The requester of the run below: node `0x00..01`. -/
def tenByteRequester : NodeAddress := ⟨.v4 ⟨Ipv4Addr.new 127 0 0 1, 9000⟩, KBucketsTable.oneNodeId⟩

/-- Five connected nodes at log2 distance 4 from `0x00..00`, each with a
235-byte record. -/
def fiveRecordRun : List (TableOp (Arr UInt8 233)) :=
  [8, 9, 10, 11, 12].map fun n => .insertOrUpdate (nodeIdOfNat n) zeroRecord ⟨.outgoing, .connected⟩ 0

/-- The table the run reaches answers FINDNODE `[4]` for the ten-byte id
with one NODES response of the five records, over the reference RLP codec. -/
theorem fiveRecordRun_responses :
    (TableOp.run (KBucketsTable.new KBucketsTable.zeroNodeId 60 maxNodesPerBucket none none)
        fiveRecordRun).bind (fun t =>
      (sendNodesResponse (fixedRecordCodec .reference 233) zeroRecord 16 0 t tenByteRequester tenByteId
        [4]).map Prod.fst) =
      some [⟨tenByteId, .nodes 1 (List.replicate 5 zeroRecord)⟩] := by
  decide +kernel

/-- A 233-byte record has a two-byte list header. -/
theorem length_encode_zeroRecord (hrlp : rlp.Lawful) (r : Arr UInt8 233) :
    ((fixedRecordCodec rlp 233).encode r).length = 235 := by
  have h : byteLength 233 = 1 := by decide
  rw [fixedRecordCodec_length, hrlp.length_encodeHeader]
  simp [h]

/-- The ten-byte id behind its one-byte string header. -/
theorem length_encodeBytes_tenByteId (hrlp : rlp.Lawful) : (rlp.encodeBytes tenByteId.bytes).length = 11 := by
  rw [hrlp.encodeBytes_eq]
  simp [tenByteId, hrlp.length_encodeHeader]

/-- The response of the five records to the ten-byte id has 1194 bytes. -/
theorem length_encode_fiveRecords (hrlp : rlp.Lawful) :
    ((⟨tenByteId, .nodes 1 (List.replicate 5 zeroRecord)⟩ : Response (Arr UInt8 233)).encode rlp
      (fixedRecordCodec rlp 233)).length = 1194 := by
  have hrecords : ((List.replicate 5 zeroRecord).flatMap (fixedRecordCodec rlp 233).encode).length = 1175 := by
    simp [length_encode_zeroRecord hrlp]
  have hid := length_encodeBytes_tenByteId hrlp
  have htotal : (rlp.encodeUint (1 : UInt64).toNat).length = 1 := hrlp.length_encodeUint_of_lt (by decide)
  have h₁ : byteLength 1175 = 2 := by decide
  rw [Response.length_encode_nodes hrlp]
  simp only [hrecords, hid, htotal, hrlp.length_encodeHeader, h₁]
  decide

/-- From a table of five 235-byte records at log2 distance 4, a FINDNODE
`[4]` with a ten-byte id, which `Message::decode` accepts, is answered with
one response whose sealed message packet has 1281 bytes, more than
`MAX_PACKET_SIZE`, so that the requester's `Packet::decode` refuses it. -/
theorem nodes_response_exceeds_packet (hrlp : rlp.Lawful) (s : Suite Sk Pk) (hs : s.aesGcm.Correct 16)
    (hsome : ∀ k n m ad, (s.aesGcm.encrypt k n m ad).isSome) (P : ProtocolIdentity)
    (aesCtr : List UInt8 → List UInt8 → Nat → UInt8) (session : Session) (srcId : NodeId)
    (randomNonce : Arr UInt8 8) (iv : BitVec 128) (dstId : NodeId) :
    let c := fixedRecordCodec rlp 233
    let request : Message (Arr UInt8 233) := .request ⟨tenByteId, .findNode [4]⟩
    Message.decode rlp c (request.encode rlp c) = .ok request ∧ (∀ e, (c.encode e).length ≤ 300) ∧
      ∃ t, TableOp.run (KBucketsTable.new KBucketsTable.zeroNodeId 60 maxNodesPerBucket none none)
          fiveRecordRun = some t ∧
        ∃ responses t', sendNodesResponse c zeroRecord 16 0 t tenByteRequester tenByteId [4] =
            some (responses, t') ∧
          ∃ response ∈ responses, ∃ packet session',
            Session.encryptMessage s P c session srcId (response.encode rlp c) randomNonce iv =
              (.ok packet, session') ∧
            (packet.encode P c aesCtr dstId).length = 1281 ∧
            maxPacketSize < (packet.encode P c aesCtr dstId).length ∧
            Packet.decode P c aesCtr dstId (packet.encode P c aesCtr dstId) = .err .tooLarge := by
  intro c request
  have hn : (233 : Nat) < 256 ^ 8 := by decide
  have hsmall : (request.encode rlp c).length < 256 ^ 8 := by
    -- a FINDNODE of one distance below `0x80` and a ten-byte id: 16 bytes
    have hid := length_encodeBytes_tenByteId hrlp
    have hd : (rlp.encodeUint 4).length = 1 := hrlp.length_encodeUint_of_lt (by decide)
    simp [request, Message.encode, Request.encode, encodeFrame, hrlp.encodeList_eq, hrlp.length_encodeHeader,
      hid, hd]
  have hdecode : Message.decode rlp c (request.encode rlp c) = .ok request :=
    Message.decode_encode hrlp (fixedRecordCodec_lawful hrlp hn) (fixedRecordCodec_listFramed hn) request
      ⟨fun d hd => by simp only [List.mem_singleton] at hd; subst hd; decide, hsmall⟩
  have hsize : ∀ e, (c.encode e).length ≤ 300 := fun e => by
    rw [length_encode_zeroRecord hrlp]
    decide
  -- the run and the response, read off the computation over the reference codec: the
  -- packing reads records only through their lengths, which are the same here
  obtain ⟨t, ht, hsend⟩ := Option.bind_eq_some_iff.mp fiveRecordRun_responses
  obtain ⟨⟨responses, t'⟩, hresp, hfst⟩ := Option.map_eq_some_iff.mp hsend
  have hsame : ∀ e, ((fixedRecordCodec .reference 233).encode e).length = (c.encode e).length :=
    fun e => (length_encode_zeroRecord RlpCodec.reference_lawful e).trans (length_encode_zeroRecord hrlp e).symm
  have hresp' : sendNodesResponse c zeroRecord 16 0 t tenByteRequester tenByteId [4] = some (responses, t') := by
    rw [← hresp]
    simp only [sendNodesResponse, nodesResponses_congr hsame]
  simp only at hfst
  subst hfst
  obtain ⟨packet, session', hseal⟩ := encryptMessage_ok s P c hsome session srcId
    ((⟨tenByteId, .nodes 1 (List.replicate 5 zeroRecord)⟩ : Response (Arr UInt8 233)).encode rlp c)
    randomNonce iv
  have hpacket : (packet.encode P c aesCtr dstId).length = 1281 := by
    rw [length_encode_encryptMessage s P c hs hseal, length_encode_fiveRecords hrlp]
  have hbig : maxPacketSize < (packet.encode P c aesCtr dstId).length := by
    rw [hpacket]
    decide
  refine ⟨hdecode, hsize, t, ht, _, t', hresp', _, List.mem_singleton_self _, packet, session', hseal,
    hpacket, hbig, ?_⟩
  simp [Packet.decode, hbig]

/-- The run above with the reference RLP codec and the toy suite, whose
cipher appends its key. -/
theorem nodes_response_exceeds_packet_toy :
    RlpCodec.reference.Lawful ∧ toySuite.aesGcm.Correct 16 ∧
      (∀ k n m ad, (toySuite.aesGcm.encrypt k n m ad).isSome) ∧
      let c := fixedRecordCodec .reference 233
      let request : Message (Arr UInt8 233) := .request ⟨tenByteId, .findNode [4]⟩
      Message.decode .reference c (request.encode .reference c) = .ok request ∧
        (∀ e, (c.encode e).length ≤ 300) ∧
        ∃ t, TableOp.run (KBucketsTable.new KBucketsTable.zeroNodeId 60 maxNodesPerBucket none none)
            fiveRecordRun = some t ∧
          ∃ responses t', sendNodesResponse c zeroRecord 16 0 t tenByteRequester tenByteId [4] =
              some (responses, t') ∧
            ∃ response ∈ responses, ∃ packet session',
              Session.encryptMessage toySuite defaultProtocolId c
                  (Session.new ⟨⟨List.replicate 16 1, rfl⟩, ⟨List.replicate 16 2, rfl⟩⟩)
                  KBucketsTable.zeroNodeId (response.encode .reference c) ⟨List.replicate 8 0, rfl⟩ 0 =
                (.ok packet, session') ∧
              (packet.encode defaultProtocolId c (fun _ _ _ => 0) KBucketsTable.oneNodeId).length = 1281 ∧
              maxPacketSize <
                (packet.encode defaultProtocolId c (fun _ _ _ => 0) KBucketsTable.oneNodeId).length ∧
              Packet.decode defaultProtocolId c (fun _ _ _ => 0) KBucketsTable.oneNodeId
                  (packet.encode defaultProtocolId c (fun _ _ _ => 0) KBucketsTable.oneNodeId) =
                .err .tooLarge :=
  ⟨RlpCodec.reference_lawful, toySuite_lawful.aesGcm_correct, fun _ _ _ _ => rfl,
    nodes_response_exceeds_packet RlpCodec.reference_lawful toySuite toySuite_lawful.aesGcm_correct
      (fun _ _ _ _ => rfl) defaultProtocolId (fun _ _ _ => 0)
      (Session.new ⟨⟨List.replicate 16 1, rfl⟩, ⟨List.replicate 16 2, rfl⟩⟩) KBucketsTable.zeroNodeId
      ⟨List.replicate 8 0, rfl⟩ 0 KBucketsTable.oneNodeId⟩

end Discv5.Service
