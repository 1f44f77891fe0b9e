import Newt.ClientBandwidth

/-!
# Bytes that are counted are reported or due

The lines of the statistics give each peer once, so a report has an entry for each
peer with its bytes since the last reading (`calculatePeerBandwidth_text`), and what
it takes over is what was due (`Rereads.due_eq`).

* `dump_processed_by_peer` — any dump is processed as its peers' sections are;
* `bytes_conserved` — in runs of steps that meet `KeepsBytes` the reported and
  pending bytes of a key are those counted since its first reading;
* `failed_send_loses_bytes` — a report that cannot be sent.
-/

namespace Newt.Clients

namespace Bandwidth

open WireGuard List Function Sys Stats Scan Tasks Option Text Loop

/-- Keys are told apart in hexadecimal, -/
theorem hexEncode_inj {k k' : Key} (h : hexEncode k = hexEncode k') : k = k' := by
  have heq := congrArg hexDecode h
  rw [hexDecode_hexEncode, hexDecode_hexEncode] at heq
  exact some.inj heq

/-- and in base64. -/
theorem base64Encode_inj {k k' : Key} (h : base64Encode k = base64Encode k') :
    k = k' := by
  have heq := congrArg base64Decode h
  rw [base64Decode_base64Encode, base64Decode_base64Encode] at heq
  exact some.inj heq

/-- No key is empty. -/
theorem hexEncode_ne_nil {k : Key} (h : k.length = 32) : hexEncode k ≠ [] := by
  intro hnil
  have heq := hexDecode_hexEncode k
  rw [hnil] at heq
  cases heq
  cases h

/-- A line has the field it begins with. -/
theorem isPrefixOf_append (lead s : List Char) : lead.isPrefixOf (lead ++ s) = true :=
  isPrefixOf_iff_prefix.mpr (prefix_append lead s)

/-- What follows is its value. -/
theorem trimPrefix_append (lead s : List Char) : trimPrefix lead (lead ++ s) = s := by
  unfold trimPrefix
  rw [isPrefixOf_append, if_pos rfl]
  exact drop_left

/-! ### Any dump -/

section Dump

variable {now : Nat} {l : List Char} {ls : List (List Char)}

/-- A call stores the reading of its peer. -/
theorem processPeerBandwidth_fst (lastReadings : Readings) (publicKey : List Char) (rx tx : Int)
    (now : Nat) :
    (processPeerBandwidth lastReadings publicKey rx tx now).1 =
      update lastReadings publicKey (some ⟨rx, tx, now⟩) := by
  unfold processPeerBandwidth
  split
  · rfl
  · split <;> rfl

/-- The peers of a dump: each `public_key` line with the lines up to the next one. -/
def peerSections : List (List Char) → List (List Char × List (List Char))
  | [] => []
  | l :: ls =>
    if publicKeyField.isPrefixOf l then
      (trimPrefix publicKeyField l, ls.takeWhile (fun l => !publicKeyField.isPrefixOf l)) ::
        peerSections ls
    else peerSections ls

/-- The last value of a field among the lines, or `n`. -/
def lastCounter (field : List Char) (n : Int) (lines : List (List Char)) : Int :=
  ((lines.filter field.isPrefixOf).getLast?.map
    (fun l => parseInt (trimPrefix field l))).getD n

/-- The peers of a dump with what is read of them. -/
def peerCalls (now : Nat) (lines : List (List Char)) : List (List Char × PeerReading) :=
  (peerSections lines).map (fun peer =>
    (peer.1, ⟨lastCounter rxField 0 peer.2, lastCounter txField 0 peer.2, now⟩))

/-- The call for a peer: the readings and the report after it. -/
def callPeer (r : Readings × List PeerBandwidth) (peer : List Char × PeerReading) :
    Readings × List PeerBandwidth :=
  let ⟨rxBytes, txBytes, now⟩ := peer.2
  let result := processPeerBandwidth r.1 peer.1 rxBytes txBytes now
  (result.1, r.2 ++ result.2.toList)

/-- The same of a call in the loop. -/
theorem callPeer_fst (r : Readings × List PeerBandwidth) (peer : List Char × PeerReading) :
    (callPeer r peer).1 = update r.1 peer.1 (some peer.2) :=
  processPeerBandwidth_fst ..

/-- The calls for distinct peers leave each of them its own reading. -/
theorem foldl_callPeer {peers : List (List Char × PeerReading)}
    (hnodup : (peers.map Prod.fst).Nodup) (r : Readings × List PeerBandwidth) :
    (∀ peer ∈ peers, (peers.foldl callPeer r).1 peer.1 = some peer.2) ∧
      ∀ k, k ∉ peers.map Prod.fst → (peers.foldl callPeer r).1 k = r.1 k := by
  induction peers generalizing r with
  | nil => exact ⟨fun _ hpeer => absurd hpeer not_mem_nil, fun _ _ => rfl⟩
  | cons peer peers ih =>
    obtain ⟨hnotin, hnodup⟩ := nodup_cons.mp hnodup
    obtain ⟨hcalled, hothers⟩ := ih hnodup (callPeer r peer)
    refine ⟨forall_mem_cons.mpr ⟨?_, hcalled⟩, fun k hk => ?_⟩
    · rw [foldl_cons, hothers _ hnotin, callPeer_fst, update_self]
    · rw [map_cons, mem_cons, not_or] at hk
      rw [foldl_cons, hothers k hk.2, callPeer_fst, update_of_ne hk.1]

/-- There is a call for each peer of the device. -/
theorem map_fst_peerCalls : (peerCalls now ls).map Prod.fst = devicePeers ls := by
  unfold peerCalls
  rw [List.map_map]
  induction ls with
  | nil => rfl
  | cons l ls ih =>
    rw [peerSections]
    unfold devicePeers at *
    by_cases hl : publicKeyField.isPrefixOf l = true
    · rw [if_pos hl, filter_cons_of_pos hl, map_cons, map_cons, ih]
      rfl
    · rw [if_neg hl, filter_cons_of_neg hl, ih]

/-- The counters are read line by line. -/
theorem lastCounter_cons (field : List Char) (n : Int) :
    lastCounter field n (l :: ls) =
      lastCounter field (if field.isPrefixOf l then parseInt (trimPrefix field l) else n)
        ls := by
  unfold lastCounter
  by_cases hl : field.isPrefixOf l = true
  · rw [filter_cons_of_pos hl, getLast?_cons, if_pos hl]
    cases (ls.filter field.isPrefixOf).getLast? <;> rfl
  · rw [filter_cons_of_neg hl, if_neg hl]

/-- The variables after the lines of the current peer. -/
def Scan.read (st : Scan) (ls : List (List Char)) : Scan :=
  { st with
    rxBytes := lastCounter rxField st.rxBytes ls
    txBytes := lastCounter txField st.txBytes ls }

/-- A line of the current peer. -/
theorem Scan.read_line (st : Scan) (hl : publicKeyField.isPrefixOf l = false) :
    (st.line now l).read ls = st.read (l :: ls) := by
  have hboth : rxField.isPrefixOf l = true → txField.isPrefixOf l = false := by
    intro hrx
    obtain ⟨v, rfl⟩ := isPrefixOf_iff_prefix.mp hrx
    rfl
  unfold read
  rw [lastCounter_cons, lastCounter_cons, line, if_neg (by rw [hl]; decide)]
  by_cases hrx : rxField.isPrefixOf l = true
  · rw [if_pos hrx, if_pos hrx, hboth hrx]
    rfl
  · rw [if_neg hrx, if_neg hrx]
    by_cases htx : txField.isPrefixOf l = true
    · rw [if_pos htx, if_pos htx]
    · rw [if_neg htx, if_neg htx]

/-- The readings and the report once the current peer is processed. -/
def Scan.finish (now : Nat) (st : Scan) : Readings × List PeerBandwidth :=
  ((st.process now).lastReadings, (st.process now).peerBandwidths)

/-- **The loop over the lines makes one call for each peer.** -/
theorem Scan.finish_foldl (now : Nat) (st : Scan) (hne : [] ∉ devicePeers ls) :
    (ls.foldl (line now) st).finish now =
      (peerCalls now ls).foldl callPeer
        ((st.read (ls.takeWhile (fun l => !publicKeyField.isPrefixOf l))).finish now) := by
  induction ls generalizing st with
  | nil => rfl
  | cons l ls ih =>
    rw [foldl_cons, peerCalls, peerSections]
    unfold devicePeers at *
    by_cases hl : publicKeyField.isPrefixOf l = true
    · rw [filter_cons_of_pos hl, map_cons, mem_cons, not_or] at hne
      rw [ih _ hne.2, if_pos hl, map_cons, foldl_cons, takeWhile_cons_of_neg (by simp [hl])]
      unfold peerCalls line
      rw [if_pos hl]
      unfold finish
      rw [process, if_pos (fun hnil => hne.1 hnil.symm)]
      rfl
    · rw [filter_cons_of_neg hl] at hne
      rw [ih _ hne, if_neg hl, takeWhile_cons_of_pos (by simp [hl]),
        read_line st (Bool.eq_false_iff.mpr hl)]
      rfl

variable (now) (lastReadings : Readings) {stats : List Char}

/-- The readings are those of the calls, for the keys of the dump. -/
theorem calculatePeerBandwidth_eq (hlines : stats.splitOn '\n' = ls)
    (hne : [] ∉ devicePeers ls) :
    calculatePeerBandwidth lastReadings stats now =
      (unfixKeys ((peerCalls now ls).foldl callPeer (lastReadings, [])).2).map
        (fun bandwidths => (fun k => if k ∈ devicePeers ls then
          ((peerCalls now ls).foldl callPeer (lastReadings, [])).1 k else none, bandwidths)) := by
  subst hlines
  exact congrArg (fun r : Readings × List PeerBandwidth => (unfixKeys r.2).map
    (fun bandwidths => (fun k => if k ∈ devicePeers _ then r.1 k else none, bandwidths)))
    (finish_foldl now ⟨lastReadings, [], [], 0, 0⟩ hne)

/-- **A dump is processed peer by peer.**  There is one call for each `public_key` line, in
order and with the counters that stand between it and the next one; the readings are those
of these calls, for the keys of the dump and no others. -/
theorem dump_processed_by_peer (hlines : stats.splitOn '\n' = ls)
    (hnodup : (devicePeers ls).Nodup) (hne : [] ∉ devicePeers ls) :
    (peerCalls now ls).map Prod.fst = devicePeers ls ∧
      ∃ readings, calculatePeerBandwidth lastReadings stats now =
          (unfixKeys ((peerCalls now ls).foldl callPeer (lastReadings, [])).2).map
            (fun bandwidths => (readings, bandwidths)) ∧
        (∀ peer ∈ peerCalls now ls, readings peer.1 = some peer.2) ∧
        ∀ k, (readings k).isSome = true ↔ k ∈ devicePeers ls := by
  have hkeys : (peerCalls now ls).map Prod.fst = devicePeers ls := map_fst_peerCalls
  obtain ⟨hcalled, -⟩ := foldl_callPeer (hkeys ▸ hnodup) (lastReadings, [])
  refine ⟨hkeys, _, calculatePeerBandwidth_eq now lastReadings hlines hne, fun peer hpeer => ?_,
    fun k => ?_⟩
  · rw [if_pos (hkeys ▸ mem_map_of_mem hpeer)]
    exact hcalled peer hpeer
  · split
    · next hk =>
      obtain ⟨peer, hpeer, rfl⟩ := mem_map.mp (hkeys ▸ hk)
      rw [hcalled peer hpeer]
      exact iff_of_true rfl hk
    · next hk => exact iff_of_false Bool.false_ne_true hk

/-- Two peers, one with a field that is given twice. -/
theorem two_peers_processed :
    let stats := "public_key=61\nrx_bytes=5\nrx_bytes=7\npublic_key=62\ntx_bytes=3\n"
    ∃ readings, calculatePeerBandwidth (fun _ => none) stats.toList 10 = some (readings, []) ∧
      readings "61".toList = some ⟨7, 0, 10⟩ ∧ readings "62".toList = some ⟨0, 3, 10⟩ := by
  intro stats
  obtain ⟨_, readings, hcalc, hcalled, _⟩ :=
    @dump_processed_by_peer 10 _ (fun _ => none) stats.toList rfl (by decide +kernel)
      (by decide +kernel)
  have hreport : unfixKeys ((peerCalls 10 (stats.toList.splitOn '\n')).foldl callPeer
      (fun _ => none, [])).2 = some [] := by
    decide +kernel
  rw [hreport] at hcalc
  exact ⟨readings, hcalc, hcalled ("61".toList, ⟨7, 0, 10⟩)
    (by decide +kernel), hcalled ("62".toList, ⟨0, 3, 10⟩) (by decide +kernel)⟩

end Dump

/-! ### The lines of the statistics -/

section Lines

variable {now : Nat} {stats : Stats} {k : Key}

/-- The counters of a peer as they are read. -/
def Stats.reading (stats : Stats) (now : Nat) (k : Key) : PeerReading :=
  ⟨parseInt (stats.digits k .received), parseInt (stats.digits k .transmitted), now⟩

/-- What is reported of a peer, still with its key in hexadecimal. -/
def Stats.result (stats : Stats) (lastReadings : Readings) (now : Nat) (k : Key) :
    Option PeerBandwidth :=
  (processPeerBandwidth lastReadings (hexEncode k) (stats.reading now k).bytesReceived
    (stats.reading now k).bytesTransmitted now).2

variable (lastReadings : Readings)

/-- Other readings do not matter. -/
theorem Stats.result_update {lastReadings : Readings} {k' : Key} (hne : k ≠ k')
    (reading : PeerReading) :
    stats.result (update lastReadings (hexEncode k') (some reading)) now k =
      stats.result lastReadings now k := by
  have hkey : hexEncode k ≠ hexEncode k' := fun heq => hne (hexEncode_inj heq)
  unfold result processPeerBandwidth
  rw [update_of_ne hkey]
  split
  · rfl
  · split <;> rfl

variable {field : List Char}

/-- Lines about other things have none of the fields. -/
theorem others_filter (ls : OtherLines) (hfield : field ∈ [publicKeyField, rxField, txField]) :
    (ls.map Subtype.val).filter field.isPrefixOf = [] := by
  rw [filter_eq_nil_iff]
  intro l hl
  obtain ⟨l, _, rfl⟩ := mem_map.mp hl
  obtain ⟨_, hkey, hrx, htx⟩ := l.property
  simp only [mem_cons, not_mem_nil, or_false] at hfield
  rcases hfield with rfl | rfl | rfl <;> simp [hkey, hrx, htx]

/-- They belong to no peer. -/
theorem peerSections_append {ls : List (List Char)} (rest : List (List Char))
    (h : ls.filter publicKeyField.isPrefixOf = []) :
    peerSections (ls ++ rest) = peerSections rest ∧
      (ls ++ rest).takeWhile (fun l => !publicKeyField.isPrefixOf l) =
        ls ++ rest.takeWhile (fun l => !publicKeyField.isPrefixOf l) := by
  rw [filter_eq_nil_iff] at h
  refine ⟨?_, takeWhile_append_of_pos (fun l hl => by rw [Bool.eq_false_iff.mpr (h l hl)]; rfl)⟩
  induction ls with
  | nil => rfl
  | cons l ls ih =>
    rw [forall_mem_cons] at h
    rw [cons_append, peerSections, if_neg h.1, ih h.2]

/-- The lines after those of a peer have no counter for it. -/
theorem takeWhile_rest (keys : List Key) (hfield : field ∈ [rxField, txField]) :
    ((keys.flatMap stats.peerLines ++ [[]]).takeWhile
      (fun l => !publicKeyField.isPrefixOf l)).filter field.isPrefixOf = [] := by
  cases keys with
  | nil =>
    simp only [mem_cons, not_mem_nil, or_false] at hfield
    rcases hfield with rfl | rfl <;> rfl
  | cons k keys => rfl

/-- A field that stands once is read. -/
theorem lastCounter_of_filter {field v : List Char} {ls : List (List Char)} (n : Int)
    (h : ls.filter field.isPrefixOf = [field ++ v]) :
    lastCounter field n ls = parseInt v := by
  unfold lastCounter
  rw [h]
  exact congrArg parseInt (trimPrefix_append field v)

/-- **The calls for the statistics** are those of its peers. -/
theorem peerCalls_keys (keys : List Key) :
    peerCalls now (keys.flatMap stats.peerLines ++ [[]]) =
      keys.map (fun k => (hexEncode k, stats.reading now k)) := by
  induction keys with
  | nil => rfl
  | cons k keys ih =>
    have hline : publicKeyLine k = publicKeyField ++ hexEncode k := rfl
    have hfilter : ((stats.before k).map Subtype.val ++
        (txField ++ stats.digits k .transmitted) :: (rxField ++ stats.digits k .received) ::
          (stats.after k).map Subtype.val).filter publicKeyField.isPrefixOf = [] := by
      rw [filter_append, others_filter _ (by decide), nil_append]
      exact others_filter (stats.after k) (by decide)
    obtain ⟨hsections, hbody⟩ :=
      peerSections_append (keys.flatMap stats.peerLines ++ [[]]) hfilter
    rw [flatMap_cons, append_assoc, peerLines, cons_append, peerCalls, peerSections, hline,
      if_pos (isPrefixOf_append ..), hsections, hbody, trimPrefix_append, map_cons, map_cons, ← ih,
      lastCounter_of_filter (v := stats.digits k .received),
      lastCounter_of_filter (v := stats.digits k .transmitted)]
    · rfl
    all_goals
      rw [filter_append, filter_append, takeWhile_rest keys (by decide), append_nil,
        others_filter _ (by decide), nil_append]
      exact congrArg (cons _) (others_filter (stats.after k) (by decide))

/-- The calls for distinct peers report each with its last reading. -/
theorem foldl_callPeer_keys {keys : List Key} (hnodup : keys.Nodup)
    (r : Readings × List PeerBandwidth) :
    ((keys.map (fun k => (hexEncode k, stats.reading now k))).foldl callPeer r).2 =
      r.2 ++ keys.flatMap (fun k => (stats.result r.1 now k).toList) := by
  induction keys generalizing r with
  | nil => exact (append_nil _).symm
  | cons key keys ih =>
    obtain ⟨hnotin, hnodup⟩ := nodup_cons.mp hnodup
    rw [map_cons, foldl_cons, ih hnodup, callPeer_fst, flatMap_cons, ← append_assoc]
    congr 1
    refine flatMap_congr ?_
    intro k hk
    rw [result_update (fun heq : k = key => hnotin (heq ▸ hk))]

/-- Digits are on one line. -/
theorem newline_notMem_digits (stats : Stats) (k : Key) (dir : Direction) :
    '\n' ∉ stats.digits k dir := by
  intro hmem
  exact (isDigit_ne (Nat.isDigit_of_mem_toDigits (by decide) (by decide) hmem)).2.1 rfl

/-- The lines of the text are those it was made of. -/
theorem Stats.splitOn_text (stats : Stats) :
    stats.text.splitOn '\n' =
      stats.head.map Subtype.val ++ stats.device.keys.flatMap stats.peerLines ++ [[]] := by
  refine splitOn_intercalate '\n' ?_ (by simp)
  have hothers : ∀ (ls : OtherLines), ∀ l ∈ ls.map Subtype.val, '\n' ∉ l := by
    intro ls l hl
    obtain ⟨l, _, rfl⟩ := mem_map.mp hl
    exact l.property.1
  have hpeer : ∀ k, ∀ l ∈ stats.peerLines k, '\n' ∉ l := by
    intro k
    have hcounter : ∀ field dir, '\n' ∉ field → '\n' ∉ field ++ stats.digits k dir := by
      intro field dir hfield
      rw [mem_append, not_or]
      exact ⟨hfield, newline_notMem_digits stats k dir⟩
    simp only [peerLines, forall_mem_cons, forall_mem_append]
    exact ⟨(oneLine_publicKey k).1, hothers _, hcounter _ _ (by decide), hcounter _ _ (by decide),
      hothers _⟩
  refine forall_mem_append.mpr ⟨forall_mem_append.mpr ⟨hothers _, fun l hl => ?_⟩,
    forall_mem_singleton.mpr not_mem_nil⟩
  obtain ⟨k, _, hl⟩ := mem_flatMap.mp hl
  exact hpeer k l hl

/-! ### Reports -/

/-- What is reported of a peer. -/
def Stats.report (stats : Stats) (lastReadings : Readings) (now : Nat) (k : Key) :
    Option PeerBandwidth :=
  (stats.result lastReadings now k).map
    (fun bandwidth => { bandwidth with publicKey := base64Encode k })

/-- A result is for its own peer. -/
theorem Stats.result_publicKey {lastReadings : Readings} {bandwidth : PeerBandwidth}
    (h : stats.result lastReadings now k = some bandwidth) :
    bandwidth.publicKey = hexEncode k := by
  unfold result processPeerBandwidth at h
  split at h
  · cases h
  · split at h
    · dsimp only at h
      split at h <;> cases h
      rfl
    · cases h

/-- Keys are translated one by one. -/
theorem unfixKeys_append {bs bs' cs cs' : List PeerBandwidth} (h : unfixKeys bs = some cs)
    (h' : unfixKeys bs' = some cs') : unfixKeys (bs ++ bs') = some (cs ++ cs') := by
  induction bs generalizing cs with
  | nil =>
    cases h
    exact h'
  | cons b bs ih =>
    unfold unfixKeys at h
    split at h
    · next key rest hkey hrest =>
      cases h
      rw [cons_append, unfixKeys, hkey, ih hrest]
      rfl
    · cases h

/-- The keys of a report can be translated. -/
theorem unfixKeys_results (keys : List Key) :
    unfixKeys (keys.flatMap (fun k => (stats.result lastReadings now k).toList)) =
      some (keys.flatMap (fun k => (stats.report lastReadings now k).toList)) := by
  induction keys with
  | nil => rfl
  | cons k keys ih =>
    rw [flatMap_cons, flatMap_cons]
    refine unfixKeys_append ?_ ih
    unfold report
    cases hresult : stats.result lastReadings now k with
    | none => rfl
    | some bandwidth =>
      have hkey := result_publicKey hresult
      show unfixKeys [bandwidth] = some [_]
      rw [unfixKeys, hkey, unfixKey, hexDecode_hexEncode]
      rfl

/-- **The statistics are processed**: the readings are those of the statistics, and
the report has what each of its peers transferred. -/
theorem calculatePeerBandwidth_text (lastReadings : Readings) (stats : Stats) (now : Nat) :
    ∃ readings, calculatePeerBandwidth lastReadings stats.text now =
        some (readings,
          stats.device.keys.flatMap (fun k => (stats.report lastReadings now k).toList)) ∧
      ∀ k, readings (hexEncode k) =
        if k ∈ stats.device.keys then some (stats.reading now k) else none := by
  have hcalls : peerCalls now (stats.text.splitOn '\n') =
      stats.device.keys.map (fun k => (hexEncode k, stats.reading now k)) := by
    rw [stats.splitOn_text, append_assoc, peerCalls,
      (peerSections_append _ (others_filter stats.head (by decide))).1]
    exact peerCalls_keys stats.device.keys
  have hkeys : (stats.device.keys.map (fun k => (hexEncode k, stats.reading now k))).map Prod.fst =
      stats.device.keys.map hexEncode := by
    rw [List.map_map]
    rfl
  have hpeers : devicePeers (stats.text.splitOn '\n') = stats.device.keys.map hexEncode := by
    rw [← @map_fst_peerCalls now, hcalls, hkeys]
  have hne : [] ∉ stats.device.keys.map hexEncode := by
    intro hnil
    obtain ⟨k, hk, hnil⟩ := mem_map.mp hnil
    exact hexEncode_ne_nil (stats.device.valid k hk) hnil
  have hcalc := calculatePeerBandwidth_eq now lastReadings rfl (hpeers ▸ hne)
  rw [hcalls, hpeers, foldl_callPeer_keys stats.device.nodup, nil_append, unfixKeys_results]
    at hcalc
  refine ⟨_, hcalc, ?_⟩
  intro k
  have hnodup : (stats.device.keys.map hexEncode).Nodup :=
    List.Pairwise.map hexEncode (fun _ _ hne heq => hne (hexEncode_inj heq)) stats.device.nodup
  rw [← hkeys] at hnodup
  obtain ⟨hcalled, -⟩ := foldl_callPeer hnodup (lastReadings, [])
  have hmem : hexEncode k ∈ stats.device.keys.map hexEncode ↔ k ∈ stats.device.keys :=
    List.mem_map_of_injective (fun _ _ heq => hexEncode_inj heq)
  by_cases hk : k ∈ stats.device.keys
  · rw [if_pos (hmem.mpr hk), if_pos hk]
    exact hcalled (hexEncode k, _) (mem_map_of_mem hk)
  · rw [if_neg (fun h => hk (hmem.mp h)), if_neg hk]

end Lines

section Amounts

variable {s : Sys} {stats : Stats} {now : Nat} {k : Key} {dir : Direction}

/-- A counter that fits is read as it is. -/
theorem Stats.reading_bytes (now : Nat) (hfits : stats.device.counter k dir < 2 ^ 63) :
    (stats.reading now k).bytes dir = stats.device.counter k dir := by
  cases dir with
  | received | transmitted => exact parseInt_toDigits hfits

/-- No negative number of bytes is reported. -/
theorem bytesDiff_nonneg (last : Int) {current : Int} (h : 0 ≤ current) :
    0 ≤ bytesDiff last current := by
  unfold bytesDiff
  dsimp only
  split
  · exact Float64.ofInt_nonneg h
  · next hdiff => exact Int.not_lt.mp hdiff

/-- The bytes of a peer since its last reading. -/
def Stats.gain (stats : Stats) (now : Nat) (k : Key) (dir : Direction) :
    Option PeerReading → Int
  | none => 0
  | some reading =>
    if reading.lastChecked < now then
      bytesDiff (reading.bytes dir) ((stats.reading now k).bytes dir)
    else 0

/-- An entry has the bytes of its peer; without an entry there are none. -/
theorem Stats.total_report {lastReadings : Readings}
    (hfits : ∀ dir, stats.device.counter k dir < 2 ^ 63) (k' : Key) :
    Tasks.total (bytesFor k' dir) (stats.report lastReadings now k).toList =
      if k = k' then stats.gain now k dir (lastReadings (hexEncode k)) else 0 := by
  have hnonneg : ∀ dir, 0 ≤ (stats.reading now k).bytes dir := by
    intro dir
    rw [reading_bytes now (hfits dir)]
    exact Int.natCast_nonneg _
  unfold report result processPeerBandwidth
  cases hlast : lastReadings (hexEncode k) with
  | none => simp [gain, Tasks.total]
  | some reading =>
    dsimp only
    by_cases hlater : reading.lastChecked < now
    · have hin := bytesDiff_nonneg reading.bytesReceived (hnonneg .received)
      have hout := bytesDiff_nonneg reading.bytesTransmitted (hnonneg .transmitted)
      rw [if_pos hlater]
      split
      · rw [map_some, toList_some, Tasks.total, Tasks.total, bytesFor]
        by_cases hk : k = k'
        · subst hk
          rw [if_pos rfl, if_pos rfl, gain, if_pos hlater]
          cases dir <;> exact Int.add_zero _
        · rw [if_neg hk, if_neg (fun heq => hk (base64Encode_inj heq))]
          rfl
      · next hnone =>
        have hzero : stats.gain now k dir (some reading) = 0 := by
          rw [gain, if_pos hlater]
          cases dir <;> dsimp only [PeerReading.bytes] at hin hout ⊢ <;> omega
        rw [hzero]
        simp [Tasks.total]
    · rw [if_neg hlater]
      simp [gain, hlater, Tasks.total]

/-- The bytes of a key in the report. -/
theorem Stats.total_reports {lastReadings : Readings} {keys : List Key} (hnodup : keys.Nodup)
    (hfits : ∀ k ∈ keys, ∀ dir, stats.device.counter k dir < 2 ^ 63) (k' : Key) :
    Tasks.total (bytesFor k' dir)
        (keys.flatMap (fun k => (stats.report lastReadings now k).toList)) =
      if k' ∈ keys then stats.gain now k' dir (lastReadings (hexEncode k')) else 0 := by
  induction keys with
  | nil => rfl
  | cons k keys ih =>
    obtain ⟨hnotin, hnodup⟩ := nodup_cons.mp hnodup
    rw [flatMap_cons, total_append, total_report (hfits k mem_cons_self),
      ih hnodup (fun k hk => hfits k (mem_cons_of_mem _ hk))]
    by_cases hk : k = k'
    · subst hk
      rw [if_pos rfl, if_neg hnotin, if_pos mem_cons_self, Int.add_zero]
    · simp only [mem_cons, ite_or, if_neg hk, if_neg (Ne.symm hk), Int.zero_add]

/-- Nothing is due of a counter at zero. -/
theorem due_zero {last : Option Int} (h : ∀ l ∈ last, 0 ≤ l) : due 0 last = 0 := by
  cases last with
  | none => rfl
  | some l =>
    have hl := h l rfl
    unfold due
    dsimp only
    split <;> omega

/-- **What a report takes over**: the bytes that were due are in the report or still
due. -/
theorem Rereads.due_eq {reading : PeerReading} (hfits : stats.device.counter k dir < 2 ^ 63)
    (h : Rereads s stats now k dir reading) :
    stats.gain now k dir (some reading) +
        due (s.counter k dir) (some (stats.device.counter k dir)) =
      due (s.counter k dir) (some (reading.bytes dir)) := by
  have hgain : stats.gain now k dir (some reading) = if reading.lastChecked < now then
      bytesDiff (reading.bytes dir) (stats.device.counter k dir) else 0 := by
    rw [← reading_bytes now hfits]
    rfl
  rw [hgain]
  rcases h with hsame | ⟨hlater, hle, hcase⟩
  · have hdiff : bytesDiff (reading.bytes dir) (stats.device.counter k dir) = 0 := by
      rw [hsame, bytesDiff, Int.sub_self]
      rfl
    rw [hdiff, hsame]
    split <;> exact Int.zero_add _
  · rw [if_pos hlater]
    unfold bytesDiff due
    dsimp only
    rw [if_pos hle]
    rcases hcase with ⟨hge, hexact⟩ | ⟨hlt, hexact⟩
    · rw [hexact, if_neg (by omega), if_pos (by omega)]
      omega
    · rw [if_pos (Float64.ofInt_neg (by omega)), hexact, if_neg (by omega)]
      omega

/-- What is due of a peer before and after its statistics are processed. -/
theorem Accounts.due_eq (h : Accounts s stats now k dir) (hstart : s.start k ≠ none) :
    stats.gain now k dir (s.lastReadings (hexEncode k)) +
      due (s.counter k dir) (some (stats.device.counter k dir)) = s.due k dir := by
  obtain ⟨hfits, hreads⟩ := h
  unfold Sys.due Sys.last
  cases hlast : s.lastReadings (hexEncode k) with
  | some reading =>
    rw [hlast] at hreads
    exact Rereads.due_eq hfits hreads
  | none =>
    rw [hlast] at hreads
    obtain ⟨t, ht⟩ := ne_none_iff_exists'.mp hstart
    have hfirst : FirstReads s stats k dir (s.start k) := hreads
    rw [ht] at hfirst
    show (0 : Int) + due _ _ = 0
    unfold due
    dsimp only
    rcases hfirst with heq | hzero
    · rw [heq, if_pos (Int.le_refl _)]
      omega
    · rw [hzero]
      split <;> omega

/-- What a call of `calculatePeerBandwidth` returns, key by key. -/
theorem calculatePeerBandwidth_spec {lastReadings readings : Readings}
    {bandwidths : List PeerBandwidth}
    (hfits : ∀ k ∈ stats.device.keys, ∀ dir, stats.device.counter k dir < 2 ^ 63)
    (h : calculatePeerBandwidth lastReadings stats.text now = some (readings, bandwidths)) :
    (∀ k, readings (hexEncode k) =
        if k ∈ stats.device.keys then some (stats.reading now k) else none) ∧
      ∀ k dir, Tasks.total (bytesFor k dir) bandwidths =
        if k ∈ stats.device.keys then stats.gain now k dir (lastReadings (hexEncode k)) else 0 := by
  obtain ⟨readings', hcalc, hreadings⟩ := calculatePeerBandwidth_text lastReadings stats now
  rw [hcalc] at h
  obtain ⟨rfl, rfl⟩ := Prod.mk.inj (some.inj h)
  exact ⟨hreadings, fun k dir => total_reports stats.device.nodup hfits k⟩

end Amounts

/-! ### Steps -/

/-- The invariant of runs.  What has not been read yet is in no report. -/
structure Sound (s : Sys) : Prop where
  conserved : s.Conserved
  unread : ∀ k, s.start k = none → s.lastReadings (hexEncode k) = none ∧
    ∀ dir, s.reported k dir + total (held k dir) s.loops = 0
  nonneg : ∀ k reading, s.lastReadings (hexEncode k) = some reading → ∀ dir, 0 ≤ reading.bytes dir

/-- In the beginning nothing was read. -/
theorem sound_init : Sound init := by
  refine ⟨?_, ?_, ?_⟩
  · intro k t ht
    cases ht
  · exact fun k _ => ⟨rfl, fun dir => rfl⟩
  · intro k reading h
    cases h

section Step

variable {s s' : Sys}

variable (h : Sound s)

include h

/-- Reports move on. -/
theorem Sound.move {loops : List Loop} {sent : List PeerBandwidth} (clock : Nat)
    (hsame : ∀ k dir, total (bytesFor k dir) sent + total (held k dir) loops =
      s.reported k dir + total (held k dir) s.loops) :
    Sound { s with clock := clock, loops := loops, sent := sent } := by
  refine ⟨?_, ?_, h.nonneg⟩
  · intro k t ht dir
    have hold := h.conserved k t ht dir
    have hk := hsame k dir
    unfold pending at hold
    show total _ sent + (total _ loops + s.due k dir) = s.total k dir - t dir
    omega
  · intro k hk
    exact ⟨(h.unread k hk).1, fun dir => (hsame k dir).trans ((h.unread k hk).2 dir)⟩

variable {i : Nat}

/-- One loop moves on without a report. -/
theorem Sound.moveLoop {a b : Loop} (hloop : s.loops[i]? = some a)
    (hheld : ∀ k dir, a.held k dir = b.held k dir) : Sound { s with loops := s.loops.set i b } := by
  refine h.move s.clock ?_
  intro k dir
  have hset := total_set (b := b) (held k dir) hloop
  have heq := hheld k dir
  unfold reported
  omega

/-- The device changes, and what is due changes with what has been counted. -/
theorem Sound.recount {device : Option Device} {total : Key → Direction → Nat}
    (hdue : ∀ k dir, s.start k ≠ none →
      ({ s with device := device } : Sys).due k dir + s.total k dir = s.due k dir + total k dir) :
    Sound { s with device := device, total := total } := by
  refine ⟨?_, h.unread, h.nonneg⟩
  intro k t ht dir
  have hold := h.conserved k t ht dir
  have hk := hdue k dir (fun hnone => by rw [show s.start k = some t from ht] at hnone; cases hnone)
  unfold pending at hold
  show s.reported k dir + (Tasks.total _ s.loops + ({ s with device := device } : Sys).due k dir) =
    total k dir - t dir
  omega

/-- The device changes, and nothing that is due does. -/
theorem Sound.device {device : Option Device}
    (hdue : ∀ k dir, ({ s with device := device } : Sys).due k dir = s.due k dir) :
    Sound { s with device := device } :=
  h.recount (fun k dir _ => by rw [hdue k dir])

/-- Of a counter at zero nothing is due. -/
theorem Sound.due_eq_zero {device : Option Device} {k : Key} {dir : Direction}
    (hzero : ({ s with device := device } : Sys).counter k dir = 0) :
    ({ s with device := device } : Sys).due k dir = 0 := by
  unfold Sys.due
  rw [hzero]
  refine due_zero ?_
  intro l hl
  obtain ⟨reading, hreading, rfl⟩ := map_eq_some_iff.mp hl
  exact h.nonneg k reading hreading dir

/-- Of a peer that is not on the device nothing is due. -/
theorem Sound.due_of_keys {k : Key} {dir : Direction}
    (hk : ∀ d ∈ s.device, k ∈ d.keys → s.due k dir = 0) : s.due k dir = 0 := by
  by_cases hdev : ∃ d ∈ s.device, k ∈ d.keys
  · obtain ⟨d, hd, hmem⟩ := hdev
    exact hk d hd hmem
  · refine h.due_eq_zero ?_
    unfold counter
    split
    · rfl
    · next d hd => exact d.absent k (fun hmem => hdev ⟨d, hd, hmem⟩) dir

/-- A device without counters. -/
theorem Sound.clear {device : Option Device}
    (hcond : ∀ d ∈ s.device, ∀ k ∈ d.keys, ∀ dir, s.due k dir = 0)
    (hzero : ∀ k dir, ({ s with device := device } : Sys).counter k dir = 0) :
    Sound { s with device := device } := by
  refine h.device ?_
  intro k dir
  rw [h.due_eq_zero (hzero k dir)]
  exact (h.due_of_keys (fun d hd hmem => hcond d hd k hmem dir)).symm

omit h

/-- What is due depends on the counter. -/
theorem due_of_counter {device : Option Device} {k : Key} {dir : Direction}
    (hsame : ({ s with device := device } : Sys).counter k dir = s.counter k dir) :
    ({ s with device := device } : Sys).due k dir = s.due k dir := by
  unfold Sys.due
  rw [hsame]
  rfl

include h

variable {key : Key}

/-- The counters of one peer are taken away. -/
theorem Sound.drop {d d' : Device} (hd : s.device = some d)
    (hcond : ∀ dir, s.due key dir = 0)
    (hcounter : d'.counter = update d.counter key (fun _ => 0)) :
    Sound { s with device := some d' } := by
  refine h.device ?_
  intro k dir
  by_cases hk : k = key
  · subst hk
    rw [hcond dir]
    refine h.due_eq_zero ?_
    show d'.counter k dir = 0
    rw [hcounter, update_self]
  · refine due_of_counter ?_
    show d'.counter k dir = s.counter k dir
    unfold counter
    rw [hcounter, update_of_ne hk, hd]

omit h

/-- Traffic is due, unless the counter wraps in between. -/
theorem due_add {counter last : Int} {n : Nat} (h : last ≤ counter ∨ counter + n < last) :
    due (counter + n) (some last) = due counter (some last) + n := by
  unfold due
  dsimp only
  rcases h with hle | hlt
  · rw [if_pos hle, if_pos (by omega)]
    omega
  · rw [if_neg (by omega), if_neg (by omega)]

/-- Traffic. -/
theorem Sound.count (h : Sound s) {dir : Direction} {n : Nat}
    (hcond : KeepsBytes s (.count key dir n)) (hstep : s.step (.count key dir n) = some s') :
    Sound s' := by
  obtain ⟨hwrap, hcond⟩ := hcond
  unfold step at hstep
  dsimp only at hstep
  split at hstep
  · cases hstep
  · next d hd =>
    have hcounter : ∀ k dir, s.counter k dir = d.counter k dir := by
      intro k dir
      unfold counter
      rw [hd]
    split at hstep
    · next hmem =>
      cases hstep
      refine h.recount ?_
      intro k dir' hstart
      unfold Sys.due
      rw [hcounter]
      show Bandwidth.due
        (update d.counter key (update (d.counter key) dir _) k dir' : Nat)
        (s.last k dir') + _ = _
      by_cases hk : k = key
      · subst hk
        by_cases hdir : dir' = dir
        · subst hdir
          rw [hcounter] at hwrap
          simp only [update_self]
          rw [Nat.mod_eq_of_lt hwrap]
          cases hlast : s.last k dir' with
          | none =>
            rw [hlast] at hcond
            exact absurd hcond hstart
          | some l =>
            rw [hlast] at hcond
            unfold KeepsCounted at hcond
            rw [hcounter] at hcond
            have hadd := due_add hcond
            push_cast
            omega
        · simp only [update_self, update_of_ne hdir]
      · simp only [update_of_ne hk]
    · cases hstep

variable {start : Key → Option (Direction → Nat)}

/-- A key has its starting point from before or from these statistics. -/
theorem started_eq_some {stats : Stats} {k : Key}
    {t : Direction → Nat} (h : started start stats k = some t) :
    start k = some t ∨ (start k = none ∧ k ∈ stats.device.keys ∧ t = stats.total k) := by
  unfold started at h
  split at h
  · next t₀ ht₀ => exact Or.inl (ht₀.trans h)
  · next hnone =>
    split at h
    · next hk => exact Or.inr ⟨hnone, hk, (some.inj h).symm⟩
    · cases h

/-- A key without a starting point is not in the statistics either. -/
theorem started_eq_none {stats : Stats} {k : Key}
    (h : started start stats k = none) : start k = none ∧ k ∉ stats.device.keys := by
  unfold started at h
  split at h
  · cases h
  · next hnone =>
    split at h
    · cases h
    · next hk => exact ⟨hnone, hk⟩

/-- **Statistics are processed.** -/
theorem Sound.process (h : Sound s) {stats : Stats} {now : Nat}
    (hloop : s.loops[i]? = some (.stamped stats now))
    (hcond : KeepsProcessed s (some (.stamped stats now))) {readings : Readings}
    {bandwidths : List PeerBandwidth}
    (hcalc : calculatePeerBandwidth s.lastReadings stats.text now = some (readings, bandwidths)) :
    Sound { s with
            lastReadings := readings
            loops := s.loops.set i (.sending bandwidths)
            start := started s.start stats } := by
  obtain ⟨hacc, hgone⟩ := hcond
  have hfits : ∀ k ∈ stats.device.keys, ∀ dir, stats.device.counter k dir < 2 ^ 63 :=
    fun k hk dir => (hacc k hk dir).1
  obtain ⟨hreadings, hbytes⟩ := calculatePeerBandwidth_spec hfits hcalc
  have hheld : ∀ k dir, total (held k dir) (s.loops.set i (.sending bandwidths)) =
      total (held k dir) s.loops +
        if k ∈ stats.device.keys then stats.gain now k dir (s.lastReadings (hexEncode k))
        else 0 := by
    intro k dir
    rw [← hbytes]
    exact (Int.add_zero _).symm.trans (total_set (held k dir) hloop)
  have hdue : ∀ k ∈ stats.device.keys, ∀ dir,
      due (s.counter k dir) ((readings (hexEncode k)).map (·.bytes dir)) =
        due (s.counter k dir) (some (stats.device.counter k dir)) := by
    intro k hk dir
    rw [hreadings, if_pos hk, map_some, reading_bytes now (hfits k hk dir)]
  refine ⟨?_, ?_, ?_⟩
  · intro k t ht dir
    show s.reported k dir + (total _ (s.loops.set i _) +
      due (s.counter k dir) ((readings (hexEncode k)).map (·.bytes dir))) = _
    rw [hheld]
    rcases started_eq_some ht with hstart | ⟨hstart, hk, rfl⟩
    · have hold := h.conserved k t hstart dir
      unfold pending at hold
      by_cases hk : k ∈ stats.device.keys
      · have hproc := (hacc k hk dir).due_eq (by rw [hstart]; exact some_ne_none _)
        rw [if_pos hk, hdue k hk]
        show _ = (s.total k dir : Int) - t dir
        omega
      · have hzero := h.due_of_keys (fun d hd hmem => hgone d hd k hmem hk dir)
        rw [if_neg hk, hreadings, if_neg hk]
        show _ + (_ + 0 + 0) = (s.total k dir : Int) - t dir
        omega
    · obtain ⟨hlast, hnone⟩ := h.unread k hstart
      have hzero := hnone dir
      obtain ⟨_, hreads⟩ := hacc k hk dir
      rw [hlast] at hreads
      have hfirst : FirstReads s stats k dir (s.start k) := hreads
      rw [hstart] at hfirst
      obtain ⟨hle, htotal⟩ := hfirst
      rw [if_pos hk, hdue k hk, hlast]
      unfold due gain
      dsimp only
      rw [if_pos (by omega)]
      omega
  · intro k hk
    obtain ⟨hstart, hk⟩ := started_eq_none hk
    refine ⟨?_, ?_⟩
    · show readings (hexEncode k) = none
      rw [hreadings, if_neg hk]
    · intro dir
      rw [hheld, if_neg hk, Int.add_zero]
      exact (h.unread k hstart).2 dir
  · intro k reading hreading dir
    have heq : readings (hexEncode k) = some reading := hreading
    rw [hreadings] at heq
    split at heq
    · next hk =>
      cases heq
      rw [reading_bytes now (hfits k hk dir)]
      exact Int.natCast_nonneg _
    · cases heq

/-- A new peer changes no counter. -/
theorem Device.add_counter (d : Device) (key : Key) (hkey : key.length = 32) :
    (d.add key hkey).counter = d.counter := by
  unfold Device.add
  split <;> rfl

include h

/-- A peer is added; its counters are at zero as before. -/
theorem Sound.addPeer (hstep : s.step (.addPeer key) = some s') : Sound s' := by
  unfold step at hstep
  dsimp only at hstep
  split at hstep
  · cases hstep
  · next d hd =>
    split at hstep
    · next hkey =>
      cases hstep
      refine h.device (fun k dir => due_of_counter ?_)
      show (d.add key hkey).counter k dir = s.counter k dir
      unfold counter
      rw [d.add_counter, hd]
    · cases hstep

/-- A loop that has nothing to do with reports yet. -/
theorem Sound.read {head : OtherLines} {before after : Key → OtherLines}
    (hstep : s.step (.read i head before after) = some s') : Sound s' := by
  unfold step at hstep
  dsimp only at hstep
  split at hstep
  · next hloop hd =>
    cases hstep
    exact h.moveLoop hloop (fun _ _ => rfl)
  · next d hloop hd =>
    cases hstep
    exact h.moveLoop hloop (fun _ _ => rfl)
  · cases hstep

/-- A report is sent. -/
theorem Sound.send (hstep : s.step (.send i) = some s') : Sound s' := by
  unfold step at hstep
  dsimp only at hstep
  split at hstep
  · next bandwidths hloop =>
    cases hstep
    refine h.move s.clock ?_
    intro k dir
    have hset : total (held k dir) (s.loops.set i .idle) +
        total (bytesFor k dir) bandwidths = total (held k dir) s.loops + 0 :=
      total_set (held k dir) hloop
    rw [total_append]
    unfold reported
    omega
  · cases hstep

/-- **Every step** that meets the condition conserves the bytes. -/
theorem Sound.step {e : Event} (hcond : KeepsBytes s e) (hstep : s.step e = some s') :
    Sound s' := by
  cases e with
  | tick n =>
    cases hstep
    exact h.move (s.clock + n) (fun _ _ => rfl)
  | loadRemoteConfig =>
    cases hstep
    refine h.move s.clock ?_
    intro k dir
    rw [total_append]
    exact congrArg (s.reported k dir + ·) (Int.add_zero _)
  | createDevice | closeDevice =>
    cases hstep
    exact h.clear hcond (fun _ _ => rfl)
  | addPeer key => exact h.addPeer hstep
  | removePeer key =>
    simp only [Sys.step] at hstep
    split at hstep
    · cases hstep
    · next d hd =>
      cases hstep
      exact h.drop hd hcond rfl
  | reset key =>
    simp only [Sys.step] at hstep
    split at hstep
    · cases hstep
    · next d hd =>
      split at hstep <;> cases hstep
      exact h.drop hd hcond rfl
  | count key dir n => exact h.count hcond hstep
  | read i head before after => exact h.read hstep
  | readFails i =>
    simp only [Sys.step] at hstep
    split at hstep <;> cases hstep
    exact h
  | stamp i =>
    simp only [Sys.step] at hstep
    split at hstep
    · next stats hloop =>
      cases hstep
      exact h.moveLoop hloop (fun _ _ => rfl)
    · cases hstep
  | process i =>
    simp only [Sys.step] at hstep
    split at hstep
    · next stats now hloop =>
      split at hstep
      · cases hstep
      · next readings bandwidths hcalc =>
        cases hstep
        have hkeeps : KeepsProcessed s s.loops[i]? := hcond
        rw [hloop] at hkeeps
        exact h.process hloop hkeeps hcalc
    · cases hstep
  | send i => exact h.send hstep
  | sendFails i =>
    simp only [Sys.step] at hstep
    split at hstep
    · next bandwidths hloop =>
      cases hstep
      have hempty : isEmptyReport s.loops[i]? = true := hcond
      rw [hloop] at hempty
      have hnil : bandwidths = [] := isEmpty_iff.mp hempty
      subst hnil
      exact h.moveLoop hloop (fun _ _ => rfl)
    · cases hstep

end Step

/-- **Conservation of bytes.**  In runs of steps that meet the condition, for every
key that has been read and in each direction, the bytes reported and the bytes pending
are together those counted since the first reading. -/
theorem bytes_conserved (es : List Event) (s : Sys)
    (hmeets : Runs.Meets step KeepsBytes init es)
    (hrun : Runs.run step init es = some s) : s.Conserved :=
  (Runs.run_invariant (fun h hcond hstep => Sound.step h hcond hstep) sound_init hmeets
    hrun).conserved

/-- The key of zeros. -/
def zeroKey : Key := replicate 32 0

/-- One round of a loop up to its report. -/
def round (i : Nat) : List Event :=
  [.tick 10, .read i [] (fun _ => []) (fun _ => []), .stamp i, .process i]

/-- A peer with a first reading. -/
def firstReading : List Event :=
  [.loadRemoteConfig, .createDevice, .addPeer zeroKey, .count zeroKey .received 5] ++ round 0 ++
    [.send 0]

/-- Two loops report a peer, and its counter is reset while nothing is due. -/
def twoLoops : List Event :=
  firstReading ++ [.loadRemoteConfig, .count zeroKey .received 100] ++ round 1 ++
    [.count zeroKey .transmitted 7] ++ round 0 ++
    [.send 0, .send 1, .reset zeroKey, .count zeroKey .received 20] ++ round 1

/-- Two loops that share the readings. -/
theorem twoLoops_conserved :
    ∃ s t, Runs.run step init twoLoops = some s ∧ s.start zeroKey = some t ∧
      s.reported zeroKey .received = 100 ∧
      s.reported zeroKey .received + s.pending zeroKey .received =
        s.total zeroKey .received - t .received := by
  have hmeets : Runs.Meets step KeepsBytes init twoLoops := by decide +kernel
  obtain ⟨s, hrun, hstart, hreported⟩ : ∃ s, Runs.run step init twoLoops = some s ∧
      (s.start zeroKey).isSome = true ∧ s.reported zeroKey .received = 100 := by
    decide +kernel
  obtain ⟨t, ht⟩ := isSome_iff_exists.mp hstart
  exact ⟨s, t, hrun, ht, hreported, bytes_conserved twoLoops s hmeets hrun zeroKey t ht .received⟩

/-- A report of traffic is not sent. -/
def failedSend : List Event :=
  firstReading ++ [.count zeroKey .received 100] ++ round 0 ++ [.sendFails 0]

/-- **A report that cannot be sent.**  The last reading was moved on before, so its
100 bytes are in no report and none is due. -/
theorem failed_send_loses_bytes :
    ∃ s t, Runs.run step init failedSend = some s ∧ s.start zeroKey = some t ∧
      s.total zeroKey .received - t .received = 100 ∧ s.reported zeroKey .received = 0 ∧
      s.pending zeroKey .received = 0 ∧ ¬s.Conserved := by
  obtain ⟨s, hrun, ⟨t, ht, htotal⟩, hreported, hpending⟩ :
      ∃ s, Runs.run step init failedSend = some s ∧
        (∃ t, s.start zeroKey = some t ∧ s.total zeroKey .received - t .received = 100) ∧
        s.reported zeroKey .received = 0 ∧ s.pending zeroKey .received = 0 := by
    decide +kernel
  refine ⟨s, t, hrun, ht, htotal, hreported, hpending, ?_⟩
  intro hconserved
  have heq := hconserved zeroKey t ht .received
  omega

end Bandwidth

end Newt.Clients
