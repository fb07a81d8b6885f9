import RangeRecall.Proofs.GroundTruth.Encoding
import RangeRecall.Proofs.GroundTruth.Parts

/-! Reading ground truths. Every input begins with an encoding or has a first defect, never both,
and the reader decides which. So reading is the inverse of writing, also for ground truths that
stand one after another. -/

namespace RangeRecall

namespace GroundTruth

open FieldCodec (word number)
open Source (Reads Stops)

variable {source : Source}

def headed (count : UInt32) (threshold : Binary32) (rest : List UInt8) : List UInt8 :=
  word.encode count ++ (number.encode threshold ++ rest)

/-- What is wrong with an input that is no encoding: the first field whose bytes are incomplete,
or the first fault of the offsets. Everything before it is there. -/
inductive Defect : List UInt8 → FormatError → Prop
  | queryCount {bytes : List UInt8} (short : bytes.length < 4) :
      Defect bytes (.truncatedField "query count" 0 1)
  | threshold {count : UInt32} {rest : List UInt8} (short : rest.length < 4) :
      Defect (word.encode count ++ rest) (.truncatedField "threshold" 0 1)
  | offsets {count : UInt32} {threshold : Binary32} {rest : List UInt8}
      (short : rest.length < 4 * (count.toNat + 1)) :
      Defect (headed count threshold rest)
        (.truncatedField "offsets" (presentValues rest.length) (count.toNat + 1))
  | firstOffset {count first : UInt32} {threshold : Binary32} {others : List UInt32}
      {rest : List UInt8} (complete : others.length = count.toNat) (positive : first ≠ 0) :
      Defect (headed count threshold (word.encodeAll (first :: others) ++ rest))
        (.firstOffset first.toNat)
  | decreasingOffsets {count first second : UInt32} {threshold : Binary32}
      {offsets : List UInt32} {position : Nat} {rest : List UInt8}
      (complete : offsets.length = count.toNat + 1) (head : offsets.head? = some 0)
      (firstAt : offsets[position]? = some first)
      (secondAt : offsets[position + 1]? = some second) (decreases : second < first)
      (before : ∀ earlier < position, ∀ left right, offsets[earlier]? = some left →
        offsets[earlier + 1]? = some right → left ≤ right) :
      Defect (headed count threshold (word.encodeAll offsets ++ rest))
        (.decreasingOffsets position first.toNat second.toNat)
  | neighborIds {count : UInt32} {threshold : Binary32} {offsets : List UInt32} {total : Nat}
      {rest : List UInt8} (complete : offsets.length = count.toNat + 1)
      (shape : RowOffsets offsets total) (short : rest.length < 4 * total) :
      Defect (headed count threshold (word.encodeAll offsets ++ rest))
        (.truncatedField "neighbor ids" (presentValues rest.length) total)
  | neighborDistances {count : UInt32} {threshold : Binary32} {offsets ids : List UInt32}
      {rest : List UInt8} (complete : offsets.length = count.toNat + 1)
      (shape : RowOffsets offsets ids.length) (short : rest.length < 4 * ids.length) :
      Defect (headed count threshold (word.encodeAll offsets ++ (word.encodeAll ids ++ rest)))
        (.truncatedField "neighbor distances" (presentValues rest.length) ids.length)

/-! ## The steps of reading

From the last to the first. Each reads one field and hands all fields so far to the next. -/

def readDistances (threshold : Binary32) (offsets ids : List UInt32) (source : Source) :
    Except Error (GroundTruth × Source) := do
  let (distances, source) ←
    readField "neighbor distances" Binary32.ofBytes (announced offsets) source
  let truth ← (ofParts threshold offsets ids distances).mapError .format
  return (truth, source)

def readNeighbors (threshold : Binary32) (offsets : List UInt32) (source : Source) :
    Except Error (GroundTruth × Source) := do
  let (ids, source) ← readField "neighbor ids" wordOf (announced offsets) source
  readDistances threshold offsets ids source

def checkRows (threshold : Binary32) (offsets : List UInt32) (source : Source) :
    Except Error (GroundTruth × Source) := do
  (checkOffsets offsets).mapError .format
  readNeighbors threshold offsets source

def readRows (queries : Nat) (thresholds : List Binary32) (source : Source) :
    Except Error (GroundTruth × Source) := do
  let (offsets, source) ← readField "offsets" wordOf (queries + 1) source
  checkRows (thresholds.headD { bits := 0 }) offsets source

def readThreshold (counts : List UInt32) (source : Source) :
    Except Error (GroundTruth × Source) := do
  let (thresholds, source) ← readField "threshold" Binary32.ofBytes 1 source
  readRows (counts.headD 0).toNat thresholds source

theorem read_eq : read = fun source =>
    readField "query count" wordOf 1 source >>= fun reply => readThreshold reply.1 reply.2 := rfl

theorem readDistances_reads (truth : GroundTruth) :
    Reads (readDistances truth.threshold truth.offsets truth.neighborIds)
      (number.encodeAll truth.neighborDistances) truth := by
  have distances := readField_reads number "neighbor distances" truth.neighborDistances
  rw [truth.length_distances.trans (announced_eq truth.rowOffsets).symm] at distances
  intro source rest reliable ahead
  unfold readDistances
  change (readField _ number.decode _ source >>= _) = _
  rw [distances source rest reliable ahead]
  change (Except.mapError _ (ofParts _ _ _ _) >>= _) = _
  rw [ofParts_self]
  rfl

theorem readNeighbors_reads (truth : GroundTruth) :
    Reads (readNeighbors truth.threshold truth.offsets)
      (word.encodeAll truth.neighborIds ++ number.encodeAll truth.neighborDistances)
      truth := by
  have ids := readField_reads word "neighbor ids" truth.neighborIds
  rw [← announced_eq truth.rowOffsets] at ids
  exact ids.bind (readDistances_reads truth)

theorem checkRows_eq {offsets : List UInt32} {total : Nat} (shape : RowOffsets offsets total)
    (threshold : Binary32) : checkRows threshold offsets = readNeighbors threshold offsets := by
  have accepted : checkOffsets offsets = .ok () :=
    checkOffsets_eq_ok_iff.mpr ⟨shape.1, shape.2.1⟩
  funext source
  rw [checkRows, accepted]
  rfl

/-! ## Encodings -/

theorem count_reads (count : UInt32) :
    Reads (readField "query count" wordOf 1) (word.encode count) [count] := by
  have field := readField_reads word "query count" [count]
  rwa [FieldCodec.encodeAll_cons, FieldCodec.encodeAll_nil, List.append_nil] at field

theorem threshold_reads (threshold : Binary32) :
    Reads (readField "threshold" Binary32.ofBytes 1) (number.encode threshold) [threshold] := by
  have field := readField_reads number "threshold" [threshold]
  rwa [FieldCodec.encodeAll_cons, FieldCodec.encodeAll_nil, List.append_nil] at field

theorem offsets_reads {queries : Nat} {offsets : List UInt32}
    (complete : offsets.length = queries + 1) :
    Reads (readField "offsets" wordOf (queries + 1)) (word.encodeAll offsets) offsets := by
  rw [← complete]
  exact readField_reads word "offsets" offsets

theorem readRows_reads {queries : Nat} {threshold : Binary32} {offsets : List UInt32}
    {bytes : List UInt8} {truth : GroundTruth} (complete : offsets.length = queries + 1)
    (rest : Reads (checkRows threshold offsets) bytes truth) :
    Reads (readRows queries [threshold]) (word.encodeAll offsets ++ bytes) truth :=
  (offsets_reads complete).bind rest

theorem readThreshold_reads {count : UInt32} {threshold : Binary32} {bytes : List UInt8}
    {truth : GroundTruth} (rest : Reads (readRows count.toNat [threshold]) bytes truth) :
    Reads (readThreshold [count]) (number.encode threshold ++ bytes) truth :=
  (threshold_reads threshold).bind rest

theorem read_reads (truth : GroundTruth) (fits : truth.queryCount < fieldLimit) :
    Reads read truth.encode truth := by
  have toNat : (UInt32.ofNat truth.queryCount).toNat = truth.queryCount :=
    UInt32.toNat_ofNat_of_lt' fits
  -- The written word is the whole count, not a remainder of it.
  have first : word.encode (UInt32.ofNat truth.queryCount) =
      LittleEndian.encode 4 truth.queryCount := congrArg (LittleEndian.encode 4) toNat
  have complete : truth.offsets.length = (UInt32.ofNat truth.queryCount).toNat + 1 := by
    rw [toNat, length_offsets]
  have neighbors := readNeighbors_reads truth
  rw [← checkRows_eq truth.rowOffsets] at neighbors
  have whole := (count_reads (UInt32.ofNat truth.queryCount)).bind
    (readThreshold_reads (readRows_reads complete neighbors))
  rwa [first, ← encode_eq, ← read_eq] at whole

/-! ## Defects -/

theorem checkRows_stops {offsets : List UInt32} {cause : FormatError}
    (refused : checkOffsets offsets = .error cause) (threshold : Binary32) (bytes : List UInt8) :
    Stops (checkRows threshold offsets) bytes (.format cause) := by
  intro source _ _
  rw [checkRows, refused]
  rfl

theorem read_stops_of_rows {count : UInt32} {threshold : Binary32} {bytes : List UInt8}
    {error : Error} (stops : Stops (readRows count.toNat [threshold]) bytes error) :
    Stops read (headed count threshold bytes) error := by
  have afterCount : Stops (readThreshold [count]) (number.encode threshold ++ bytes) error :=
    (threshold_reads threshold).bind_stops stops
  rw [read_eq]
  exact (count_reads count).bind_stops afterCount

theorem read_stops_of_check {count : UInt32} {threshold : Binary32} {offsets : List UInt32}
    {bytes : List UInt8} {error : Error} (complete : offsets.length = count.toNat + 1)
    (stops : Stops (checkRows threshold offsets) bytes error) :
    Stops read (headed count threshold (word.encodeAll offsets ++ bytes)) error :=
  read_stops_of_rows ((offsets_reads complete).bind_stops stops)

theorem checkOffsets_of_decrease {offsets : List UInt32} {position : Nat} {first second : UInt32}
    (head : offsets.head? = some 0) (firstAt : offsets[position]? = some first)
    (secondAt : offsets[position + 1]? = some second) (decreases : second < first)
    (before : ∀ earlier < position, ∀ left right, offsets[earlier]? = some left →
      offsets[earlier + 1]? = some right → left ≤ right) :
    checkOffsets offsets = .error (.decreasingOffsets position first.toNat second.toNat) := by
  cases offsets with
  | nil => cases head
  | cons zero others =>
      have isZero : ¬zero ≠ 0 := fun positive => positive (Option.some.inj head)
      rw [checkOffsets, if_neg isZero,
        firstDecrease?_eq_of_first firstAt secondAt decreases before, Nat.zero_add]

theorem readNeighbors_stops_ids {offsets : List UInt32} {total : Nat} {rest : List UInt8}
    (shape : RowOffsets offsets total) (short : rest.length < 4 * total)
    (threshold : Binary32) :
    Stops (readNeighbors threshold offsets) rest
      (.format (.truncatedField "neighbor ids" (presentValues rest.length) total)) := by
  have field := readField_stops word "neighbor ids" short
  rw [← announced_eq shape] at field ⊢
  exact field.bind (readDistances threshold offsets)

theorem readNeighbors_stops_distances {offsets ids : List UInt32} {rest : List UInt8}
    (shape : RowOffsets offsets ids.length) (short : rest.length < 4 * ids.length)
    (threshold : Binary32) :
    Stops (readNeighbors threshold offsets) (word.encodeAll ids ++ rest)
      (.format (.truncatedField "neighbor distances" (presentValues rest.length) ids.length)) := by
  have idsRead := readField_reads word "neighbor ids" ids
  have field := readField_stops number "neighbor distances" short
  rw [← announced_eq shape] at idsRead field ⊢
  have distances : Stops (readDistances threshold offsets ids) rest _ :=
    field.bind fun distances source => do
      let truth ← (ofParts threshold offsets ids distances).mapError .format
      return (truth, source)
  exact idsRead.bind_stops distances

theorem read_stops {bytes : List UInt8} {cause : FormatError} (defect : Defect bytes cause) :
    Stops read bytes (.format cause) := by
  have none {length : Nat} (short : length < 4) : presentValues length = 0 :=
    presentValues_of_short (Nat.lt_trans short (by decide))
  cases defect with
  | queryCount short =>
      have field := readField_stops word "query count"
        (show bytes.length < 4 * 1 from short)
      rw [none short] at field
      rw [read_eq]
      exact field.bind readThreshold
  | @threshold count rest short =>
      have field := readField_stops number "threshold"
        (show rest.length < 4 * 1 from short)
      rw [none short] at field
      have afterCount : Stops (readThreshold [count]) rest _ := field.bind (readRows count.toNat)
      rw [read_eq]
      exact (count_reads count).bind_stops afterCount
  | @offsets count threshold rest short =>
      have field := readField_stops word "offsets" short
      have rows : Stops (readRows count.toNat [threshold]) rest _ :=
        field.bind (checkRows threshold)
      exact read_stops_of_rows rows
  | @firstOffset count first threshold others rest complete positive =>
      have refused : checkOffsets (first :: others) = .error (.firstOffset first.toNat) := by
        rw [checkOffsets, if_pos positive]
      exact read_stops_of_check (congrArg Nat.succ complete)
        (checkRows_stops refused threshold rest)
  | @decreasingOffsets count first second threshold offsets position rest complete head firstAt
      secondAt decreases before =>
      have refused := checkOffsets_of_decrease head firstAt secondAt decreases before
      exact read_stops_of_check complete (checkRows_stops refused threshold rest)
  | @neighborIds count threshold offsets total rest complete shape short =>
      have neighbors := readNeighbors_stops_ids shape short threshold
      rw [← checkRows_eq shape] at neighbors
      exact read_stops_of_check complete neighbors
  | @neighborDistances count threshold offsets ids rest complete shape short =>
      have neighbors := readNeighbors_stops_distances shape short threshold
      rw [← checkRows_eq shape] at neighbors
      exact read_stops_of_check complete neighbors

/-! ## Every input is an encoding or has a defect -/

theorem rowOffsets_or_defect {count : UInt32} {offsets : List UInt32}
    (complete : offsets.length = count.toNat + 1) (threshold : Binary32) (rest : List UInt8) :
    (∃ total, RowOffsets offsets total) ∨
      ∃ cause, Defect (headed count threshold (word.encodeAll offsets ++ rest)) cause := by
  cases offsets with
  | nil => cases complete
  | cons first others =>
      by_cases isZero : first = 0
      · have head : (first :: others).head? = some 0 := congrArg some isZero
        cases decrease : firstDecrease? 0 (first :: others) with
        | none =>
            have increasing := pairwise_of_firstDecrease?_eq_none decrease
            exact .inl ⟨_, head, increasing, getLast?_eq_announced head⟩
        | some found =>
            rcases found with ⟨position, larger, smaller⟩
            rcases firstDecrease?_eq_some decrease with
              ⟨index, place, firstAt, secondAt, decreases, before⟩
            exact .inr ⟨_, .decreasingOffsets complete head firstAt secondAt decreases before⟩
      · exact .inr ⟨_, .firstOffset (Nat.succ.inj complete) isZero⟩

theorem neighbors_or_defect {count : UInt32} {offsets : List UInt32} {total : Nat}
    (complete : offsets.length = count.toNat + 1) (shape : RowOffsets offsets total)
    (threshold : Binary32) (rest : List UInt8) :
    (∃ ids distances last, ids.length = total ∧ distances.length = total ∧
      rest = word.encodeAll ids ++ (number.encodeAll distances ++ last)) ∨
      ∃ cause, Defect (headed count threshold (word.encodeAll offsets ++ rest)) cause := by
  by_cases idsThere : 4 * total ≤ rest.length
  · rcases word.exists_encodeAll_append idsThere with ⟨ids, afterIds, rfl, rfl⟩
    by_cases distancesThere : 4 * ids.length ≤ afterIds.length
    · rcases number.exists_encodeAll_append distancesThere with
        ⟨distances, last, length, rfl⟩
      exact .inl ⟨ids, distances, last, rfl, length, rfl⟩
    · exact .inr ⟨_, .neighborDistances complete shape (Nat.lt_of_not_le distancesThere)⟩
  · exact .inr ⟨_, .neighborIds complete shape (Nat.lt_of_not_le idsThere)⟩

theorem exists_encode {count : UInt32} {offsets ids : List UInt32} {distances : List Binary32}
    (complete : offsets.length = count.toNat + 1) (shape : RowOffsets offsets ids.length)
    (length : distances.length = ids.length) (threshold : Binary32) :
    ∃ truth : GroundTruth, truth.queryCount < fieldLimit ∧
      truth.encode = headed count threshold
        (word.encodeAll offsets ++ (word.encodeAll ids ++ number.encodeAll distances)) := by
  rcases exists_ofParts shape length threshold with ⟨truth, built⟩
  rcases ofParts_eq_ok built with ⟨sameThreshold, sameOffsets, sameIds, sameDistances⟩
  have queries : truth.queryCount = count.toNat := by
    rw [queryCount, sameOffsets, complete, Nat.add_sub_cancel]
  refine ⟨truth, queries ▸ count.toNat_lt, ?_⟩
  rw [encode_eq, queries, sameThreshold, sameOffsets, sameIds, sameDistances]
  rfl

theorem encode_or_defect (bytes : List UInt8) :
    (∃ truth : GroundTruth, ∃ rest, truth.queryCount < fieldLimit ∧ bytes = truth.encode ++ rest) ∨
      ∃ cause, Defect bytes cause := by
  by_cases countThere : 4 ≤ bytes.length
  · rcases word.exists_encode_append countThere with ⟨count, afterCount, rfl⟩
    by_cases thresholdThere : 4 ≤ afterCount.length
    · rcases number.exists_encode_append thresholdThere with ⟨threshold, afterThreshold, rfl⟩
      by_cases offsetsThere : 4 * (count.toNat + 1) ≤ afterThreshold.length
      · rcases word.exists_encodeAll_append offsetsThere with
          ⟨offsets, afterOffsets, complete, rfl⟩
        rcases rowOffsets_or_defect complete threshold afterOffsets with ⟨total, shape⟩ | defect
        · rcases neighbors_or_defect complete shape threshold afterOffsets with
            ⟨ids, distances, rest, rfl, length, rfl⟩ | defect
          · rcases exists_encode complete shape length threshold with ⟨truth, fits, encoded⟩
            refine .inl ⟨truth, rest, fits, ?_⟩
            rw [encoded, headed]
            simp only [List.append_assoc]
          · exact .inr defect
        · exact .inr defect
      · exact .inr ⟨_, .offsets (Nat.lt_of_not_le offsetsThere)⟩
    · exact .inr ⟨_, .threshold (Nat.lt_of_not_le thresholdThere)⟩
  · exact .inr ⟨_, .queryCount (Nat.lt_of_not_le countThere)⟩

/-! ## Reading is the inverse of writing -/

theorem read_eq_ok_iff (reliable : source.Reliable) {truth : GroundTruth} {next : Source} :
    read source = .ok (truth, next) ↔
      ∃ bytes rest, truth.Encodes bytes ∧ source.ahead = bytes ++ rest ∧
        next = source.advance bytes.length := by
  constructor
  · intro accepted
    rcases encode_or_defect source.ahead with ⟨found, rest, fits, ahead⟩ | ⟨cause, defect⟩
    · rw [read_reads found fits source rest reliable ahead] at accepted
      cases accepted
      exact ⟨truth.encode, rest, encodes_iff.mpr ⟨fits, rfl⟩, ahead, rfl⟩
    · rw [read_stops defect source reliable rfl] at accepted
      cases accepted
  · rintro ⟨bytes, rest, encodes, ahead, rfl⟩
    rcases encodes_iff.mp encodes with ⟨fits, rfl⟩
    exact read_reads truth fits source rest reliable ahead

theorem read_eq_error_iff (reliable : source.Reliable) {error : Error} :
    read source = .error error ↔ ∃ cause, error = .format cause ∧ Defect source.ahead cause := by
  constructor
  · intro refused
    rcases encode_or_defect source.ahead with ⟨found, rest, fits, ahead⟩ | ⟨cause, defect⟩
    · rw [read_reads found fits source rest reliable ahead] at refused
      cases refused
    · rw [read_stops defect source reliable rfl] at refused
      cases refused
      exact ⟨cause, rfl, defect⟩
  · rintro ⟨cause, rfl, defect⟩
    exact read_stops defect source reliable rfl

theorem encodes_unique {first second : GroundTruth}
    {firstBytes secondBytes firstRest secondRest : List UInt8}
    (firstEncodes : first.Encodes firstBytes) (secondEncodes : second.Encodes secondBytes)
    (same : firstBytes ++ firstRest = secondBytes ++ secondRest) :
    first = second ∧ firstRest = secondRest := by
  have reliable := Source.ofBytes_reliable (firstBytes ++ firstRest)
  have firstRead := (read_eq_ok_iff reliable).mpr ⟨_, firstRest, firstEncodes, rfl, rfl⟩
  have secondRead := (read_eq_ok_iff reliable).mpr ⟨_, secondRest, secondEncodes, same, rfl⟩
  rw [firstRead] at secondRead
  have sameTruth : first = second := congrArg Prod.fst (Except.ok.inj secondRead)
  subst sameTruth
  rw [(encodes_iff.mp firstEncodes).2, (encodes_iff.mp secondEncodes).2] at same
  exact ⟨rfl, List.append_cancel_left same⟩

def readMany : (count : Nat) → Source → Except Error (List GroundTruth × Source)
  | 0, source => .ok ([], source)
  | count + 1, source => do
    let (truth, source) ← read source
    let (others, source) ← readMany count source
    return (truth :: others, source)

theorem readMany_reads {truths : List GroundTruth}
    (fit : ∀ truth ∈ truths, truth.queryCount < fieldLimit) :
    Reads (readMany truths.length) (truths.flatMap fields).flatten truths := by
  induction truths with
  | nil =>
      intro source rest _ _
      rfl
  | cons truth rest induction =>
      have first := read_reads truth (fit truth List.mem_cons_self)
      have others := induction fun other member => fit other (List.mem_cons_of_mem _ member)
      rw [List.flatMap_cons, List.flatten_append]
      exact first.cons others

theorem readMany_of_writeMany (reliable : source.Reliable) {truths : List GroundTruth}
    (fit : ∀ truth ∈ truths, truth.queryCount < fieldLimit) :
    ∃ sink, writeMany truths {} = (.ok (), sink) ∧
      ∀ rest, source.ahead = sink.contents ++ rest →
        ∃ next, readMany truths.length source = .ok (truths, next) ∧ next.ahead = rest := by
  refine ⟨_, writeMany_eq fit rfl, ?_⟩
  intro rest ahead
  have contents : (Sink.afterFields {} (truths.flatMap fields)).contents =
      (truths.flatMap fields).flatten := by
    rw [Sink.contents_afterFields]
    rfl
  rw [contents] at ahead
  refine ⟨_, readMany_reads fit source rest reliable ahead, ?_⟩
  rw [Source.ahead_advance, ahead, List.drop_left]

/-- The format in both directions. On a working source, reading succeeds exactly if the input
begins with what writing makes of some ground truth, which it then answers with, having taken
exactly these bytes. Otherwise it reports the first defect of the input. -/
theorem read_inverts_write (reliable : source.Reliable) :
    (∀ truth next, read source = .ok (truth, next) ↔
      ∃ bytes rest, truth.Encodes bytes ∧ source.ahead = bytes ++ rest ∧
        next = source.advance bytes.length) ∧
    (∀ first second : GroundTruth, ∀ firstBytes secondBytes firstRest secondRest,
      first.Encodes firstBytes → second.Encodes secondBytes →
        source.ahead = firstBytes ++ firstRest → source.ahead = secondBytes ++ secondRest →
          first = second ∧ firstRest = secondRest) ∧
    (∀ error, read source = .error error ↔
      ∃ cause, error = .format cause ∧ Defect source.ahead cause) ∧
    (∀ truths : List GroundTruth, (∀ truth ∈ truths, truth.queryCount < fieldLimit) →
      ∃ sink, writeMany truths {} = (.ok (), sink) ∧
        ∀ rest, source.ahead = sink.contents ++ rest →
          ∃ next, readMany truths.length source = .ok (truths, next) ∧ next.ahead = rest) ∧
    ∀ truth : GroundTruth, truth.queryCount < fieldLimit → ∃ bytes, truth.Encodes bytes :=
  ⟨fun _ _ => read_eq_ok_iff reliable,
    fun _ _ _ _ _ _ firstEncodes secondEncodes firstAhead secondAhead =>
      encodes_unique firstEncodes secondEncodes (firstAhead.symm.trans secondAhead),
    fun _ => read_eq_error_iff reliable,
    fun _ fit => readMany_of_writeMany reliable fit,
    fun truth fits => ⟨truth.encode, encodes_iff.mpr ⟨fits, rfl⟩⟩⟩

def oneNeighbor : GroundTruth where
  threshold := { bits := 0x3f800000 }
  offsets := [0, 1, 1]
  neighborIds := [7]
  neighborDistances := [{ bits := 0x3f000000 }]
  rowOffsets := by decide
  length_distances := rfl

theorem read_oneNeighbor :
    let source : Source := { ahead := oneNeighbor.encode ++ [255], piece := some 3 }
    source.Reliable ∧ read source = .ok (oneNeighbor, source.advance 28) := by
  intro source
  have reliable : source.Reliable := { neverFails := rfl, delivers := by decide }
  have size : oneNeighbor.encode.length = 28 := by decide
  refine ⟨reliable, ?_⟩
  rw [← size]
  exact ((read_inverts_write reliable).1 oneNeighbor _).mpr
    ⟨oneNeighbor.encode, [255], encodes_iff.mpr ⟨by decide, rfl⟩, rfl, rfl⟩

end GroundTruth

end RangeRecall
