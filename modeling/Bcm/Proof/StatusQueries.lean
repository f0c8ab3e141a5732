import Bcm.DesktopQueries
import Bcm.Proof.DesktopCodec
import Bcm.Proof.Requests

/-!
# Status queries

What the desktop shows for GET_STATUS, GET_BATTERY and GET_DTC is what the firmware holds: the bytes
that a handler lays out are the bytes that the helper reads back.
-/

namespace Bcm

open Commands

namespace Desktop

/-! ### The frames the desktop takes -/

theorem FrameParser.content_frames (p : FrameParser) (bytes : List UInt8) :
    (p.frames bytes).map Frame.content = (p.answers bytes).filterMap (·.2) := by
  induction bytes generalizing p with
  | nil => rfl
  | cons byte bytes ih =>
      have hanswers : p.answers (byte :: bytes) =
          (p.receive byte).2 :: (p.feed byte).1.answers bytes := rfl
      rw [hanswers, frames, List.filterMap_cons]
      dsimp only [receive]
      by_cases hcomplete : (p.feed byte).2 = .complete
      · rw [if_neg (not_not.mpr hcomplete), if_pos hcomplete, List.map_append, ih]
        cases (p.feed byte).1.frame with
        | none => rfl
        | some f => rfl
      · rw [if_pos hcomplete, if_neg hcomplete]
        exact ih (p.feed byte).1

theorem FrameParser.frames_wire {p : FrameParser} (hp : p.state = .header) {f : Bcm.Frame}
    (hlen : f.len ≤ kMaxPayload) : p.frames f.wire = [⟨f.cmd, f.data⟩] := by
  have hholds : p.Holds [] := by
    unfold Holds pending Buffered
    rw [hp]
    exact ⟨rfl, trivial⟩
  have hanswers : p.answers f.wire =
      List.replicate (f.wire.length - 1) (.needMore, none) ++ [(.complete, some f.content)] :=
    (collects.final_of_whole hholds (FrameUnit.frame f hlen)).2
  have hcontent := p.content_frames f.wire
  rw [hanswers, List.filterMap_append, List.filterMap_replicate] at hcontent
  obtain ⟨g, hg, hsame⟩ := List.map_eq_singleton_iff.mp hcontent
  have hcmd : g.cmd = f.cmd := congrArg (·.1) hsame
  have hpayload : g.payload = f.data := congrArg (·.2.2) hsame
  rw [hg, ← hcmd, ← hpayload]

/-- The two bytes of a word, read back. -/
theorem word_eq (word : BitVec 16) :
    ((highByte word).toBitVec.setWidth 16 <<< 8) ||| (lowByte word).toBitVec.setWidth 16 =
      word := by
  apply BitVec.eq_of_getLsbD_eq
  intro i hi
  by_cases hlow : i < 8
  · simp [highByte, lowByte, hlow, hi]
  · have hshift : 8 + (i - 8) = i := by omega
    have hbyte : i - 8 < 8 := by omega
    simp [highByte, lowByte, hlow, hshift, hbyte, hi]

theorem getStatusAsync_reply {cmd status switchBitmap power : UInt8} {word : BitVec 16}
    (hcmd : cmd &&& kResponseFlag ≠ 0) (hstatus : status = Status.ok.toUInt8) :
    getStatusAsync (some ⟨cmd, [status, highByte word, lowByte word, switchBitmap, power]⟩) =
      some ⟨word, switchBitmap, power⟩ := by
  simp [getStatusAsync, Frame.ok, Frame.isResponse, Frame.status, Frame.readUInt16, hcmd, hstatus,
    word_eq]

theorem getBatteryAsync_reply {cmd status : UInt8} {word : BitVec 16}
    (hcmd : cmd &&& kResponseFlag ≠ 0) (hstatus : status = Status.ok.toUInt8) :
    getBatteryAsync (some ⟨cmd, [status, highByte word, lowByte word]⟩) = some word := by
  simp [getBatteryAsync, Frame.ok, Frame.isResponse, Frame.status, Frame.readUInt16, hcmd, hstatus,
    word_eq]

theorem getDtcsAsync_reply {cmd status : UInt8} {codes : List Dtc}
    (hcmd : cmd &&& kResponseFlag ≠ 0) (hstatus : status = Status.ok.toUInt8)
    (hcount : codes.length < 256) :
    getDtcsAsync (some ⟨cmd, status :: UInt8.ofNat codes.length :: codes⟩) = codes := by
  have hbyte : (UInt8.ofNat codes.length).toNat = codes.length := UInt8.toNat_ofNat_of_lt' hcount
  have hok : (⟨cmd, status :: UInt8.ofNat codes.length :: codes⟩ : Frame).ok = true := by
    simp [Frame.ok, Frame.isResponse, Frame.status, hcmd, hstatus]
  have hlong : ¬(status :: UInt8.ofNat codes.length :: codes).length < 2 := by simp
  unfold getDtcsAsync
  dsimp only
  rw [hok, if_neg (by decide), dif_neg hlong]
  apply List.ext_getElem
  · rw [List.length_ofFn]
    simp [hbyte]
  · intro i hi hi'
    simp [Nat.add_comm 2 i]

end Desktop

/-! ### The replies of the firmware -/

/-- The loop of a handler that copies a list leaves it in the payload behind what was there. -/
theorem copyPayload_list (codes : List UInt8) {start : Nat} (hroom : start + codes.length ≤ 32)
    (response : Frame) :
    ∃ payload : Vector UInt8 32, copyPayload (codes[·]?) start codes.length response =
        some { response with payload := payload } ∧
      payload.toList.take (start + codes.length) =
        response.payload.toList.take start ++ codes := by
  have hcopy : ∀ count, count ≤ codes.length →
      ∃ payload : Vector UInt8 32, copyPayload (codes[·]?) start count response =
          some { response with payload := payload } ∧
        payload.toList.take (start + count) =
          response.payload.toList.take start ++ codes.take count := by
    intro count
    induction count with
    | zero =>
        intro _
        exact ⟨response.payload, rfl, by simp⟩
    | succ count ih =>
        intro hcount
        obtain ⟨payload, hcopied, htake⟩ := ih (by omega)
        have hlast : start + count < 32 := by omega
        have hcode : codes[count]? = some codes[count] := List.getElem?_eq_getElem hcount
        refine ⟨payload.set (start + count) codes[count], ?_, ?_⟩
        · rw [copyPayload_succ, hcopied, Option.bind_some, hcode, Option.bind_some,
            Frame.write_of_lt _ hlast]
        · have hlength : start + count < payload.toList.length := by simpa using hlast
          calc ((payload.set (start + count) codes[count]).toList.take (start + (count + 1)))
              = payload.toList.take (start + count) ++ [codes[count]] := by
                rw [← Nat.add_assoc, List.take_add_one, Vector.toList_set,
                  List.take_set_of_le le_rfl, List.getElem?_set_self hlength]
                rfl
            _ = response.payload.toList.take start ++ codes.take (count + 1) := by
                rw [htake, List.take_add_one, hcode, List.append_assoc]
                rfl
  obtain ⟨payload, hcopied, htake⟩ := hcopy codes.length le_rfl
  rw [List.take_length] at htake
  exact ⟨payload, hcopied, htake⟩

/-- What a query gives where the row of the table answers with this length and this payload. -/
theorem query_eq {cmd : Cmd} {request : Frame} {context context' : Option CommandContext}
    {handler : Handler} {len : UInt8} {payload : Vector UInt8 32} {p : Desktop.FrameParser}
    (hp : p.state = .header) (hplain : cmd.toUInt8 &&& kResponseFlag = 0)
    (hother : cmd.toUInt8 ||| kResponseFlag ≠ Desktop.logEventCmd)
    (hfind : Dispatcher.find commandTable cmd.toUInt8 = some ⟨cmd.toUInt8, some handler, 0⟩)
    (hhandler : handler { request with cmd := cmd.toUInt8 } (makeStatusResponse cmd.toUInt8 .ok)
      context = some (true, ⟨cmd.toUInt8 ||| kResponseFlag, len, payload⟩, context'))
    (hlen : len ≤ kMaxPayload) (d : Dispatcher) :
    query cmd request d context p =
      some ⟨cmd.toUInt8 ||| kResponseFlag, payload.toList.take len.toNat⟩ := by
  have hdispatch : d.dispatch commandTable { request with cmd := cmd.toUInt8 } .new context =
      some (true, ⟨cmd.toUInt8 ||| kResponseFlag, len, payload⟩, { d with handled := d.handled + 1 },
        context') := by
    have hlong : ¬request.len < 0 := UInt8.not_lt.mpr UInt8.zero_le
    unfold Dispatcher.dispatch
    dsimp only
    rw [if_neg (not_not.mpr hplain), hfind]
    dsimp only
    rw [if_neg hlong, hhandler]
    rfl
  have hencode : (⟨cmd.toUInt8 ||| kResponseFlag, len, payload⟩ : Frame).encode true kMaxFrameSize =
      some (Frame.wire ⟨cmd.toUInt8 ||| kResponseFlag, len, payload⟩) := by
    have hsize := Nat.add_le_add_right (UInt8.le_iff_toNat_le.mp hlen) kFrameOverhead
    rw [Frame.wire_eq hlen]
    exact Frame.encode_eq _ hlen hsize
  have hframes := Desktop.FrameParser.frames_wire hp
    (f := ⟨cmd.toUInt8 ||| kResponseFlag, len, payload⟩) hlen
  unfold query
  rw [hdispatch]
  simp only [Option.bind_eq_bind, Option.bind_some, if_true, hencode, hframes]
  simp [Desktop.requestAsync, hother, Frame.data]

section

variable {p : Desktop.FrameParser} (hp : p.state = .header) (c : CommandContext)

include hp

theorem getStatus_faithful {lamps : LampState} (hactual : c.actual = some lamps) (request : Frame)
    (d : Dispatcher) :
    Desktop.getStatusAsync (query .getStatus request d (some c) p) =
      some ⟨lamps.bitmap, c.switchBitmap, c.powerState⟩ := by
  have hhandler : handleGetStatus { request with cmd := Cmd.getStatus.toUInt8 }
      (makeStatusResponse Cmd.getStatus.toUInt8 .ok) (some c) =
        some (true, ⟨Cmd.getStatus.toUInt8 ||| kResponseFlag, 5,
          ((((Frame.new.payload.set 0 Status.ok.toUInt8).set 1 (highByte lamps.bitmap)).set 2
            (lowByte lamps.bitmap)).set 3 c.switchBitmap).set 4 c.powerState⟩, some c) := by
    simp only [handleGetStatus, Option.bind_some, hactual]
    rfl
  rw [query_eq hp (by decide) (by decide) rfl hhandler (by decide)]
  exact Desktop.getStatusAsync_reply (by decide) rfl

theorem getBattery_faithful {battery : AnalogInput} (hbattery : c.battery = some battery)
    (request : Frame) (d : Dispatcher) :
    Desktop.getBatteryAsync (query .getBattery request d (some c) p) = some battery.permille := by
  have hhandler : handleGetBattery { request with cmd := Cmd.getBattery.toUInt8 }
      (makeStatusResponse Cmd.getBattery.toUInt8 .ok) (some c) =
        some (true, ⟨Cmd.getBattery.toUInt8 ||| kResponseFlag, 3,
          ((Frame.new.payload.set 0 Status.ok.toUInt8).set 1 (highByte battery.permille)).set 2
            (lowByte battery.permille)⟩, some c) := by
    simp only [handleGetBattery, Option.bind_some, hbattery]
    rfl
  rw [query_eq hp (by decide) (by decide) rfl hhandler (by decide)]
  exact Desktop.getBatteryAsync_reply (by decide) rfl

theorem getDtc_faithful {faults : FaultMgr} (hfaults : c.faults = some faults) (request : Frame)
    (d : Dispatcher) :
    Desktop.getDtcsAsync (query .getDtc request d (some c) p) =
      (faults.entries.filter (·.active)).map (·.code) := by
  have hbound : ((faults.entries.filter (·.active)).map (·.code)).length ≤ 8 := by
    rw [List.length_map]
    exact (List.length_filter_le _ _).trans faults.bounded
  have hcodes : faults.activeCodes (kMaxPayload.toNat - 2) =
      (faults.entries.filter (·.active)).map (·.code) :=
    List.take_of_length_le (hbound.trans (by decide))
  generalize (faults.entries.filter (·.active)).map (·.code) = codes at hbound hcodes ⊢
  have hroom : 2 + codes.length ≤ 32 := by omega
  obtain ⟨payload, hcopy, htake⟩ := copyPayload_list codes hroom
    ⟨Cmd.getDtc.toUInt8 ||| kResponseFlag, 2 + UInt8.ofNat codes.length,
      (Frame.new.payload.set 0 Status.ok.toUInt8).set 1 (UInt8.ofNat codes.length)⟩
  have hlen : (2 + UInt8.ofNat codes.length).toNat = 2 + codes.length := by
    rw [UInt8.toNat_add, UInt8.toNat_ofNat']
    change (2 + codes.length % 256) % 256 = _
    omega
  have hhandler : handleGetDtc { request with cmd := Cmd.getDtc.toUInt8 }
      (makeStatusResponse Cmd.getDtc.toUInt8 .ok) (some c) =
        some (true, ⟨Cmd.getDtc.toUInt8 ||| kResponseFlag, 2 + UInt8.ofNat codes.length, payload⟩,
          some c) := by
    simp only [handleGetDtc, Option.bind_some, hfaults, hcodes]
    rw [Frame.write_of_lt _ (by decide), Option.bind_eq_bind, Option.bind_some]
    exact congrArg (·.bind fun response => some (true, response, some c)) hcopy
  have hfits : 2 + UInt8.ofNat codes.length ≤ kMaxPayload := by
    rw [UInt8.le_iff_toNat_le, hlen]
    exact hroom
  rw [query_eq hp (by decide) (by decide) rfl hhandler hfits, hlen, htake]
  exact Desktop.getDtcsAsync_reply (by decide) rfl (by omega)

/-- **Status queries are faithful end to end.** Over a link that loses nothing, the three helpers of
the desktop return what the firmware's context holds. -/
theorem status_queries_faithful (lamps : LampState) (battery : AnalogInput) (faults : FaultMgr)
    (request : Frame) (d : Dispatcher) :
    let context :=
      some { c with actual := some lamps, battery := some battery, faults := some faults }
    Desktop.getStatusAsync (query .getStatus request d context p) =
        some ⟨lamps.bitmap, c.switchBitmap, c.powerState⟩ ∧
      Desktop.getBatteryAsync (query .getBattery request d context p) = some battery.permille ∧
      Desktop.getDtcsAsync (query .getDtc request d context p) =
        (faults.entries.filter (·.active)).map (·.code) := by
  intro context
  exact ⟨getStatus_faithful hp _ rfl request d, getBattery_faithful hp _ rfl request d,
    getDtc_faithful hp _ rfl request d⟩

end

/-- A parked car with an old fault that is gone, and a flat battery. -/
theorem status_queries_faithful_parked :
    let faults := ((FaultMgr.new.set Dtc.commsLost).set Dtc.batteryLow).clear Dtc.commsLost
    let context := some { CommandContext.new with
      actual := some LampState.dark
      battery := some ⟨0, .new⟩
      faults := some faults }
    Desktop.getDtcsAsync (query .getDtc .new .new context .new) = [Dtc.batteryLow] :=
  (status_queries_faithful rfl .new .dark ⟨0, .new⟩ _ .new .new).2.2

end Bcm
