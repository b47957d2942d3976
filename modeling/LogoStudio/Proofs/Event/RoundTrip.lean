import LogoStudio.Proofs.Event.Validity
import LogoStudio.Proofs.Json.RoundTrip

/-!
# Records read back

A record of a valid event is read as that event, whether its members stand as they were
written or in their normal order. Since reading gives valid events only, these are exactly
the events that come back, and a list of events that was read once is read again from its
own text.
-/
namespace LogoStudio.Event

open Plane (Point Affine)
open Json (get?_object_of_mem get?_normal_of_mem normalItems_eq_map)

/-- A value has the members, each as it stands or in its normal form. -/
def Carries (j : Json) (members : List (String × Json)) : Prop :=
  ∀ key v, (key, v) ∈ members → j.get? key = some v ∨ j.get? key = some v.normal

section

variable {members : List (String × Json)} {j v : Json}

lemma carries_object (hdistinct : (members.map Prod.fst).Nodup) :
    Carries (.object members) members := by
  intro key v h
  exact .inl (get?_object_of_mem hdistinct h)

lemma carries_normal (hdistinct : (members.map Prod.fst).Nodup) :
    Carries (Json.object members).normal members := by
  intro key v h
  exact .inr (get?_normal_of_mem hdistinct h)

lemma Carries.get? (h : Carries j members) (key : String) (hnormal : v.normal = v)
    (hmem : (key, v) ∈ members) : j.get? key = some v := by
  have hget := h key v hmem
  rw [hnormal] at hget
  exact hget.elim id id

lemma Carries.need {α : Type} {read : Json → Option α} {a : α} (h : Carries j members)
    (key : String) (hnormal : v.normal = v) (hread : read v = some a) (hmem : (key, v) ∈ members) :
    need j key read = .ok a := by
  rw [Event.need, h.get? key hnormal hmem, Option.bind_some, hread]

lemma Carries.needText {s : String} (h : Carries j members) (key : String)
    (hmem : (key, .text s) ∈ members) : Event.need j key Json.asText? = .ok s :=
  h.need key rfl rfl hmem

end

lemma normal_array {items : List Json} (h : ∀ item ∈ items, item.normal = item) :
    (Json.array items).normal = .array items := by
  rw [Json.normal, normalItems_eq_map, List.map_congr_left h, List.map_id']

lemma normal_numberJson (x : Float) : (numberJson x).normal = numberJson x := by
  unfold numberJson
  split <;> rfl

lemma normal_pointJson (p : Point) : (pointJson p).normal = pointJson p := by
  apply normal_array
  simp [normal_numberJson]

lemma normal_pixelJson (p : Pixel) : (pixelJson p).normal = pixelJson p := rfl

lemma asNumber?_numberJson {x : Float} (h : x.isFinite = true) :
    (numberJson x).asNumber? = some x := by
  simp [numberJson, Json.asNumber?, h]

lemma point?_pointJson {p : Point} (h : AllFinite (pointNumbers p)) :
    point? (pointJson p) = some p := by
  have hx := asNumber?_numberJson (h p.x (by simp [pointNumbers]))
  have hy := asNumber?_numberJson (h p.y (by simp [pointNumbers]))
  simp [point?, two?, pointJson, hx, hy]

lemma two?_pointJson {p q : Point} (h : AllFinite (pointNumbers p ++ pointNumbers q)) :
    two? point? (.array [pointJson p, pointJson q]) = some (p, q) := by
  obtain ⟨hp, hq⟩ := List.forall_mem_append.mp h
  simp [two?, point?_pointJson hp, point?_pointJson hq]

lemma list?_map {α : Type} {read : Json → Option α} {encode : α → Json} {xs : List α}
    (h : ∀ x ∈ xs, read (encode x) = some x) : list? read (.array (xs.map encode)) = some xs := by
  change (xs.map encode).mapM read = some xs
  induction xs with
  | nil => rfl
  | cons x xs ih =>
      obtain ⟨hx, hxs⟩ := List.forall_mem_cons.mp h
      rw [List.map_cons, List.mapM_cons, hx, ih hxs]
      rfl

lemma list?_numberJson {xs : List Float} (h : AllFinite xs) :
    list? Json.asNumber? (.array (xs.map numberJson)) = some xs :=
  list?_map fun x hx => asNumber?_numberJson (h x hx)

lemma affine?_coefficients {map : Affine} (h : AllFinite map.coefficients) :
    affine? (.array (map.coefficients.map numberJson)) = some map := by
  rw [affine?, list?_numberJson h]
  rfl

/-- The squared radii of an ellipse are the one list of its shape. -/
lemma list?_shape {p : Point} (h : AllFinite (pointNumbers p)) :
    list? (list? Json.asNumber?) (.array [pointJson p]) = some [pointNumbers p] := by
  have hpoint : list? Json.asNumber? (pointJson p) = some (pointNumbers p) := list?_numberJson h
  change [pointJson p].mapM (list? Json.asNumber?) = _
  rw [List.mapM_cons, hpoint]
  rfl

lemma radii_pointNumbers {p : Point} (h : ∀ x ∈ pointNumbers p, ¬x < 0) :
    radii [pointNumbers p] = .ok p := by
  have hx := h p.x (by simp [pointNumbers])
  have hy := h p.y (by simp [pointNumbers])
  simp [radii, pointNumbers, hx, hy]

lemma asNat?_integer {bound n : Nat} (h : n < bound) : Json.asNat? bound (.integer n) = some n := by
  have hbound : (0 : Int) ≤ n ∧ (n : Int) < bound := by omega
  rw [Json.asNat?, if_pos hbound, Int.toNat_natCast]

lemma pixel?_pixelJson (p : Pixel) : pixel? (pixelJson p) = some p := by
  have hbyte (x : UInt8) : Json.asNat? 256 (.integer x.toNat) = some x.toNat :=
    asNat?_integer x.toNat_lt
  have hbytes : list? (Json.asNat? 256) (pixelJson p) =
      some [p.r.toNat, p.g.toNat, p.b.toNat, p.a.toNat] := by
    simp [list?, pixelJson, Json.asArray?, hbyte]
  rw [pixel?, hbytes]
  simp

lemma align?_alignName (align : TextAlign) : align? (.text (alignName align)) = some align := by
  cases align <;> rfl

/-- The colour of a value with the members of a colour. -/
lemma colorOfMembers?_of_carries {j : Json} {members : List (String × Json)} {c : Color}
    (h : Carries j members) (hmembers : ∀ m ∈ colorMembers c, m ∈ members)
    (hfinite : AllFinite (colorNumbers c)) : colorOfMembers? j = some c := by
  have hchannel (key : String) {x : Float} (hx : x ∈ colorNumbers c)
      (hmem : (key, numberJson x) ∈ colorMembers c) :
      j.get? key = some (numberJson x) ∧ (numberJson x).asNumber? = some x :=
    ⟨h.get? key (normal_numberJson x) (hmembers _ hmem), asNumber?_numberJson (hfinite x hx)⟩
  obtain ⟨hr, hr'⟩ := @hchannel "r" c.r (by simp [colorNumbers]) (by simp [colorMembers])
  obtain ⟨hg, hg'⟩ := @hchannel "g" c.g (by simp [colorNumbers]) (by simp [colorMembers])
  obtain ⟨hb, hb'⟩ := @hchannel "b" c.b (by simp [colorNumbers]) (by simp [colorMembers])
  obtain ⟨ha, ha'⟩ := @hchannel "a" c.a (by simp [colorNumbers]) (by simp [colorMembers])
  simp [colorOfMembers?_eq, opacity?, hr, hr', hg, hg', hb, hb', ha, ha']

lemma canonical_canvasTag (command : CanvasCommand) :
    Tag.canonical command.tag.toList = command.tag.toList ∧
      Tag.isKnown command.tag.toList = true := by
  cases command <;> dsimp only [CanvasCommand.tag] <;> decide

/-- The tags of events other than messages are canonical and known. -/
lemma canonical_tag {e : Event} (h : ∀ kind value, e ≠ .message kind value) :
    Tag.canonical e.tag.toList = e.tag.toList ∧ Tag.isKnown e.tag.toList = true := by
  cases e with
  | message kind value => exact absurd rfl (h kind value)
  | canvas command => exact canonical_canvasTag command
  | _ =>
      dsimp only [Event.tag]
      decide

lemma ellipse_of_carries {j : Json} {center p : Point}
    (h : Carries j [("center", pointJson center), ("shape", .array [pointJson p])])
    (hfinite : AllFinite (pointNumbers center ++ pointNumbers p))
    (hradii : ∀ x ∈ pointNumbers p, ¬x < 0) : ellipse j = .ok (center, p) := by
  obtain ⟨hcenter, hp⟩ := List.forall_mem_append.mp hfinite
  have hneed₁ := h.need "center" (normal_pointJson center) (point?_pointJson hcenter) (by simp)
  have hneed₂ := h.need "shape" (normal_array (by simp [normal_pointJson])) (list?_shape hp)
    (by simp)
  exact bind_eq_ok.mpr ⟨center, hneed₁, bind_eq_ok.mpr ⟨[pointNumbers p], hneed₂,
    bind_eq_ok.mpr ⟨p, radii_pointNumbers hradii, rfl⟩⟩⟩

/-- A canvas command is read from its members. -/
lemma canvasCommand_of_carries {command : CanvasCommand} {j : Json}
    (h : Carries j (canvasMembers command)) (hfinite : AllFinite (canvasNumbers command))
    (hradii : ∀ x ∈ (Event.canvas command).squaredRadii, ¬x < 0) :
    canvasCommand command.tag j = .ok command := by
  cases command with
  | clear | resetTransform => rfl
  | fillRect p q | frameRect p q =>
      have hpoints := h.need "points" (normal_array (by simp [normal_pointJson]))
        (two?_pointJson hfinite) (by simp [canvasMembers])
      exact bind_eq_ok.mpr ⟨(p, q), hpoints, rfl⟩
  | fillEllipse center p | frameEllipse center p =>
      exact bind_eq_ok.mpr ⟨(center, p), ellipse_of_carries h hfinite hradii, rfl⟩
  | line p q =>
      obtain ⟨hp, hq⟩ := List.forall_mem_append.mp hfinite
      have hstart := h.need "from" (normal_pointJson p) (point?_pointJson hp)
        (by simp [canvasMembers])
      have hfinish := h.need "to" (normal_pointJson q) (point?_pointJson hq)
        (by simp [canvasMembers])
      exact bind_eq_ok.mpr ⟨p, hstart, bind_eq_ok.mpr ⟨q, hfinish, rfl⟩⟩
  | text text position =>
      have htext : need j "str" Json.asText? = .ok text :=
        h.needText "str" (by simp [canvasMembers])
      have hposition := h.need "position" (normal_pointJson position) (point?_pointJson hfinite)
        (by simp [canvasMembers])
      exact bind_eq_ok.mpr ⟨text, htext, bind_eq_ok.mpr ⟨position, hposition, rfl⟩⟩
  | setLineColor color | setFillColor color =>
      have hcolor := colorOfMembers?_of_carries h (fun _ hm => hm) hfinite
      unfold canvasCommand
      rw [hcolor]
      rfl
  | setPixel position pixel =>
      have hx := asNumber?_numberJson (hfinite position.x (by simp [canvasNumbers, pointNumbers]))
      have hy := asNumber?_numberJson (hfinite position.y (by simp [canvasNumbers, pointNumbers]))
      have hneed₁ := h.need "x" (normal_numberJson _) hx (by simp [canvasMembers])
      have hneed₂ := h.need "y" (normal_numberJson _) hy (by simp [canvasMembers])
      have hpixel := h.need "rgba" (normal_pixelJson pixel) (pixel?_pixelJson pixel)
        (by simp [canvasMembers])
      exact bind_eq_ok.mpr ⟨position.x, hneed₁, bind_eq_ok.mpr ⟨position.y, hneed₂,
        bind_eq_ok.mpr ⟨pixel, hpixel, rfl⟩⟩⟩
  | setOpacity alpha =>
      have halpha := asNumber?_numberJson (hfinite alpha (by simp [canvasNumbers]))
      have hneed := h.need "alpha" (normal_numberJson alpha) halpha (by simp [canvasMembers])
      exact bind_eq_ok.mpr ⟨alpha, hneed, rfl⟩
  | setFont font =>
      have hfont : need j "font" Json.asText? = .ok font :=
        h.needText "font" (by simp [canvasMembers])
      exact bind_eq_ok.mpr ⟨font, hfont, rfl⟩
  | setTextAlign align =>
      have halign := h.need "align" rfl (align?_alignName align) (by simp [canvasMembers])
      exact bind_eq_ok.mpr ⟨align, halign, rfl⟩
  | transform map =>
      have hmap := h.need "matrix" (normal_array (by simp [normal_numberJson]))
        (affine?_coefficients hfinite) (by simp [canvasMembers])
      exact bind_eq_ok.mpr ⟨map, hmap, rfl⟩

lemma lineColor?_object {members : List (String × Json)} {c : Color}
    (h : colorOfMembers? (.object members) = some c) :
    lineColor? (.object members) = some (.ok c) := by
  change (colorOfMembers? (.object members)).map Except.ok = _
  rw [h]
  rfl

/-- The colour of a turtle line is read from its channels in either order. -/
lemma lineColor?_of_channels {c : Color} {v : Json} (hfinite : AllFinite (colorNumbers c))
    (hv : v = .object (colorMembers c) ∨ v = (Json.object (colorMembers c)).normal) :
    lineColor? v = some (.ok c) := by
  have hdistinct : ((colorMembers c).map Prod.fst).Nodup := by simp [colorMembers]
  obtain rfl | rfl := hv
  · apply lineColor?_object
    exact colorOfMembers?_of_carries (carries_object hdistinct) (fun _ hm => hm) hfinite
  · apply lineColor?_object
    exact colorOfMembers?_of_carries (carries_normal hdistinct) (fun _ hm => hm) hfinite

/-- An event other than a message is read from its members. -/
lemma ofKnown_of_carries {e : Event} {j : Json} (hvalid : e.Valid)
    (hmessage : ∀ kind value, e ≠ .message kind value) (h : Carries j e.members) :
    ofKnown e.tag j = .ok e := by
  cases e with
  | message kind value => exact absurd rfl (hmessage kind value)
  | timeout => rfl
  | compileError line note =>
      have hline := h.need "line" rfl (asNat?_integer line.toNat_lt) (by simp [members])
      have hnote : need j "message" Json.asText? = .ok note :=
        h.needText "message" (by simp [members])
      refine mapError_eq_ok.mpr
        (bind_eq_ok.mpr ⟨line.toNat, hline, bind_eq_ok.mpr ⟨note, hnote, ?_⟩⟩)
      rw [UInt32.ofNat_toNat]
      rfl
  | runtimeError note =>
      have hnote : need j "message" Json.asText? = .ok note :=
        h.needText "message" (by simp [members])
      exact mapError_eq_ok.mpr (bind_eq_ok.mpr ⟨note, hnote, rfl⟩)
  | print value =>
      have hvalue : need j "value" (some ∘ valueText) = .ok value :=
        h.need "value" rfl rfl (by simp [members] : ("value", Json.text value) ∈ _)
      exact mapError_eq_ok.mpr (bind_eq_ok.mpr ⟨value, hvalue, rfl⟩)
  | turtle line =>
      obtain ⟨hpoints, hcolor⟩ := List.forall_mem_append.mp hvalid.finite
      obtain ⟨hstart, hfinish⟩ := List.forall_mem_append.mp hpoints
      have hneed₁ := h.need "from" (normal_pointJson line.start) (point?_pointJson hstart)
        (by simp [members])
      have hneed₂ := h.need "to" (normal_pointJson line.finish) (point?_pointJson hfinish)
        (by simp [members])
      have hneed₃ : need j "color" lineColor? = .ok (.ok line.color) := by
        obtain hget | hget := h "color" (.object (colorMembers line.color)) (by simp [members])
        · rw [need, hget, Option.bind_some, lineColor?_of_channels hcolor (.inl rfl)]
        · rw [need, hget, Option.bind_some, lineColor?_of_channels hcolor (.inr rfl)]
      exact bind_eq_ok.mpr ⟨line.start, mapError_eq_ok.mpr hneed₁, bind_eq_ok.mpr ⟨line.finish,
        mapError_eq_ok.mpr hneed₂, bind_eq_ok.mpr ⟨.ok line.color, mapError_eq_ok.mpr hneed₃, rfl⟩⟩⟩
  | canvas command =>
      have hcommand := canvasCommand_of_carries h hvalid.finite hvalid.radii
      have hknown : ofKnown command.tag j =
          (canvasCommand command.tag j >>= fun c => pure (.canvas c)).mapError
            (.malformed command.tag) := by
        cases command <;> rfl
      rw [Event.tag, hknown, hcommand]
      rfl

/-- A valid event is read from a value that has its tag and its members. -/
theorem ofRecord_of_carries {e : Event} {j : Json} (hvalid : e.Valid)
    (h : Carries j (("type", .text e.tag) :: e.members)) : ofRecord j = .ok (some e) := by
  have htype := h.get? "type" rfl List.mem_cons_self
  have hmembers : Carries j e.members := fun key v hmem => h key v (List.mem_cons_of_mem _ hmem)
  unfold ofRecord
  rw [htype]
  change (if Tag.isKnown (Tag.canonical e.tag.toList) then _ else _) = _
  by_cases hmessage : ∃ kind value, e = .message kind value
  · obtain ⟨kind, value, rfl⟩ := hmessage
    have hvalue : j.get? "value" = some (.text value) :=
      hmembers.get? "value" rfl (by simp [members])
    have hunknown := hvalid.unreserved kind value rfl
    rw [if_neg (by simpa [Event.tag] using hunknown), hvalue]
    rfl
  · have hother : ∀ kind value, e ≠ .message kind value :=
      fun kind value heq => hmessage ⟨kind, value, heq⟩
    obtain ⟨hcanonical, hknown⟩ := canonical_tag hother
    rw [hcanonical, if_pos hknown, String.ofList_toList, ofKnown_of_carries hvalid hother hmembers]
    rfl

/-- No key of a record is repeated. -/
lemma distinct_keys (e : Event) :
    ((("type", Json.text e.tag) :: e.members).map Prod.fst).Nodup := by
  cases e with
  | canvas command => cases command <;> simp [members, canvasMembers, colorMembers]
  | _ => simp [members]

/-- The record of a valid event is read as the event. -/
theorem ofRecord_record {e : Event} (hvalid : e.Valid) : ofRecord e.record = .ok (some e) :=
  ofRecord_of_carries hvalid (carries_object (distinct_keys e))

theorem ofRecord_normal {e : Event} (hvalid : e.Valid) :
    ofRecord e.record.normal = .ok (some e) :=
  ofRecord_of_carries hvalid (carries_normal (distinct_keys e))

section

open Json (Writable)

lemma writable_numberJson (depth : Nat) (x : Float) : Writable depth (numberJson x) := by
  unfold numberJson
  split
  · next hfinite => exact .float hfinite
  · exact .null

lemma writable_pointJson (depth : Nat) (p : Point) : Writable (depth + 1) (pointJson p) := by
  apply Writable.array
  simp [writable_numberJson]

lemma writable_pixelJson (depth : Nat) (p : Pixel) : Writable (depth + 1) (pixelJson p) := by
  have hbyte (x : UInt8) : Writable depth (.integer x.toNat) := by
    have hlt := x.toNat_lt
    exact .integer (by omega) (by omega)
  apply Writable.array
  simp [hbyte]

lemma writable_colorMembers (depth : Nat) (c : Color) :
    ∀ m ∈ colorMembers c, Writable depth m.2 := by
  simp [colorMembers, writable_numberJson]

lemma writable_canvasMembers (depth : Nat) (command : CanvasCommand) :
    ∀ m ∈ canvasMembers command, Writable (depth + 2) m.2 := by
  have hpoints (ps : List Point) : Writable (depth + 2) (.array (ps.map pointJson)) := by
    apply Writable.array
    simp [writable_pointJson]
  cases command with
  | clear | resetTransform => exact List.forall_mem_nil _
  | fillRect p q | frameRect p q => exact List.forall_mem_singleton.mpr (hpoints [p, q])
  | fillEllipse center p | frameEllipse center p =>
      exact List.forall_mem_cons.mpr
        ⟨writable_pointJson _ center, List.forall_mem_singleton.mpr (hpoints [p])⟩
  | line p q => simp [canvasMembers, writable_pointJson]
  | text text position => simp [canvasMembers, writable_pointJson, Writable.text]
  | setLineColor color | setFillColor color => exact writable_colorMembers _ color
  | setPixel position pixel =>
      simp [canvasMembers, writable_numberJson, writable_pixelJson]
  | setOpacity alpha => simp [canvasMembers, writable_numberJson]
  | setFont font | setTextAlign align => exact List.forall_mem_singleton.mpr .text
  | transform map =>
      refine List.forall_mem_singleton.mpr (Writable.array ?_)
      simp [writable_numberJson]

/-- Every event has a text: numbers that are not finite become `null`. -/
lemma writable_record (depth : Nat) (e : Event) : Writable (depth + 3) e.record := by
  apply Writable.object
  refine List.forall_mem_cons.mpr ⟨.text, ?_⟩
  cases e with
  | canvas command => exact writable_canvasMembers depth command
  | compileError line note =>
      have hlt := line.toNat_lt
      have hline : Writable (depth + 2) (.integer line.toNat) := .integer (by omega) (by omega)
      simp [members, hline, Writable.text]
  | turtle line =>
      have hcolor := Writable.object (writable_colorMembers (depth + 1) line.color)
      simp [members, writable_pointJson, hcolor]
  | timeout => exact List.forall_mem_nil _
  | runtimeError note | print value | message kind value =>
      exact List.forall_mem_singleton.mpr .text

end

/-- The text of a list of events is read as the normal forms of their records. -/
lemma read?_listText (events : List Event) :
    Json.read? (listText events) = some (.array (events.map fun e => e.record.normal)) := by
  have hwritable : Json.Writable Json.maxDepth (.array (events.map record)) := by
    refine Json.Writable.array fun j hj => ?_
    obtain ⟨e, -, rfl⟩ := List.mem_map.mp hj
    exact writable_record 123 e
  rw [Json.read?, listText, Json.parse?_write hwritable, Option.map_some, Json.normal,
    normalItems_eq_map, List.map_map]
  rfl

lemma ofRecords_normal {events : List Event} (h : ∀ e ∈ events, e.Valid) :
    ofRecords (events.map fun e => e.record.normal) = events := by
  induction events with
  | nil => rfl
  | cons e events ih =>
      obtain ⟨he, hevents⟩ := List.forall_mem_cons.mp h
      rw [List.map_cons, ofRecords, List.filterMap_cons, ofRecord_normal he]
      exact congrArg (e :: ·) (ih hevents)

lemma valid_of_mem_ofRecords {records : List Json} {e : Event} (h : e ∈ ofRecords records) :
    e.Valid := by
  obtain ⟨j, -, hj⟩ := List.mem_filterMap.mp h
  split at hj
  · next event heq =>
      subst hj
      exact valid_of_ofRecord heq
  · cases hj

/-- Every event has a text that spells its record. A record is read as its event exactly if
the event is valid, in the order in which it was written and in normal form, and every
record that is read gives a valid event. Hence the events of a text that holds an array are
the events of the text that they are written as. -/
theorem records_read_back :
    (∀ e : Event, Json.parse? e.text = some e.record ∧
      (ofRecord e.record = .ok (some e) ↔ e.Valid) ∧
      (ofRecord e.record.normal = .ok (some e) ↔ e.Valid)) ∧
    (∀ (j : Json) (e : Event), ofRecord j = .ok (some e) → e.Valid) ∧
    ∀ (text : String) (records : List Json), Json.read? text = some (.array records) →
      ∃ events, readList text = .ok events ∧ readList (listText events) = .ok events := by
  refine ⟨fun e => ⟨?_, ?_, ?_⟩, fun j e => valid_of_ofRecord, fun text records htext => ?_⟩
  · exact Json.parse?_write (writable_record 124 e)
  · exact ⟨valid_of_ofRecord, ofRecord_record⟩
  · exact ⟨valid_of_ofRecord, ofRecord_normal⟩
  · refine ⟨ofRecords records, ?_, ?_⟩
    · rw [readList, htext]
    · have hback := ofRecords_normal fun e (h : e ∈ ofRecords records) => valid_of_mem_ofRecords h
      rw [readList, read?_listText]
      exact congrArg Except.ok hback

/-- A line in the older spelling, with whole numbers among its coordinates, a record that is
passed over, and a printed value that is no text. -/
theorem records_read_back_of_line :
    let text := "[\x7b\"type\":\"canvas line\",\"from\":[0,1.5],\"to\":[2,-3e2]\x7d," ++
      "\x7b\"type\":\"note\"\x7d,\x7b\"type\":\"print\",\"value\":[true]\x7d]"
    let events := [Event.canvas (.line ⟨0, 1.5⟩ ⟨2, -300⟩), .print "[true]"]
    readList text = .ok events ∧ readList (listText events) = .ok events := by
  intro text events
  have hevents : (readList text).toOption = some events := by decide +kernel
  obtain ⟨records, htext⟩ : ∃ records, Json.read? text = some (.array records) := by
    unfold readList at hevents
    split at hevents
    · cases hevents
    · next records htext => exact ⟨records, htext⟩
    · cases hevents
  obtain ⟨found, hread, hback⟩ := records_read_back.2.2 text records htext
  rw [hread] at hevents
  obtain rfl := Option.some.inj hevents
  exact ⟨hread, hback⟩

end LogoStudio.Event
