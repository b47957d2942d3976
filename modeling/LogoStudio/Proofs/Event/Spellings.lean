import LogoStudio.Proofs.Event.Validity
import LogoStudio.Proofs.Json.RoundTrip

/-!
# Spellings of a tag

The older spellings of a tag are not a second language: a record is read as it is with its
tag in the canonical form, and the canonical form of a tag has no other canonical form. The
tags of drawing commands and of timeouts are reserved in every spelling, so that none of
them is ever taken for a message or passed over. A tag that is not known has one spelling
only, and its records are always read.
-/
namespace LogoStudio

namespace Tag

/-- The names of the spaces of drawing commands. -/
def spaces : List (List Char) := ["turtle".toList, "canvas".toList]

lemma mem_spaces {space : List Char} :
    space ∈ spaces ↔ space = "turtle".toList ∨ space = "canvas".toList := by
  simp [spaces]

/-- The name of a space followed by a dot or a blank, or everything that starts with
`timeout`. -/
def Reserved (tag : List Char) : Prop :=
  "timeout".toList <+: tag ∨ ∃ space ∈ spaces, space ++ ['.'] <+: tag ∨ space ++ [' '] <+: tag

instance (tag : List Char) : Decidable (Reserved tag) := inferInstanceAs (Decidable (_ ∨ _))

/-- In the older spelling of a space only the name of the space is kept. -/
lemma respell?_eq_some {space tag form : List Char} :
    respell? space tag = some form ↔ ∃ command, tag = space ++ ' ' :: command ∧
      space ++ '.' :: joinWords (Text.words command) = form := by
  rw [respell?, Option.map_eq_some_iff]
  simp only [Text.after?_eq_some, List.append_assoc, List.cons_append, List.nil_append]

/-- A tag is canonical unless it starts with `timeout` or is an older spelling of a space. -/
lemma canonical_cases (tag : List Char) :
    canonical tag = "timeout".toList ∨
    (∃ space ∈ spaces, ∃ command, canonical tag = space ++ '.' :: command) ∨
    canonical tag = tag := by
  unfold canonical
  split
  · exact .inl rfl
  · cases hturtle : respell? "turtle".toList tag with
    | some form =>
        obtain ⟨command, -, rfl⟩ := respell?_eq_some.mp hturtle
        exact .inr (.inl ⟨_, mem_spaces.mpr (.inl rfl), _, rfl⟩)
    | none =>
        cases hcanvas : respell? "canvas".toList tag with
        | some form =>
            obtain ⟨command, -, rfl⟩ := respell?_eq_some.mp hcanvas
            exact .inr (.inl ⟨_, mem_spaces.mpr (.inr rfl), _, rfl⟩)
        | none => exact .inr (.inr rfl)

section

variable {space : List Char} (hspace : space ∈ spaces)

include hspace

lemma canonical_dotted (command : List Char) :
    canonical (space ++ '.' :: command) = space ++ '.' :: command := by
  obtain rfl | rfl := mem_spaces.mp hspace
  · rfl
  · rfl

lemma canonical_blank (command : List Char) :
    canonical (space ++ ' ' :: command) = space ++ '.' :: joinWords (Text.words command) := by
  obtain rfl | rfl := mem_spaces.mp hspace
  · rfl
  · rfl

lemma isKnown_dotted (command : List Char) : isKnown (space ++ '.' :: command) = true := by
  obtain rfl | rfl := mem_spaces.mp hspace
  · rfl
  · rfl

end

lemma canonical_timeout {tag : List Char} (h : "timeout".toList <+: tag) :
    canonical tag = "timeout".toList := by
  rw [canonical, if_pos (Text.startsWith_iff.mpr h)]

/-- The canonical form of a tag has no other canonical form. -/
lemma canonical_canonical (tag : List Char) : canonical (canonical tag) = canonical tag := by
  obtain htimeout | ⟨space, hspace, command, hform⟩ | hsame := canonical_cases tag
  · rw [htimeout]
    rfl
  · rw [hform, canonical_dotted hspace]
  · rw [hsame, hsame]

/-- A reserved tag is known in every spelling. -/
lemma isKnown_of_reserved {tag : List Char} (h : Reserved tag) :
    isKnown (canonical tag) = true := by
  obtain htimeout | ⟨space, hspace, ⟨command, rfl⟩ | ⟨command, rfl⟩⟩ := h
  · rw [canonical_timeout htimeout]
    rfl
  · rw [List.append_assoc, List.singleton_append, canonical_dotted hspace]
    exact isKnown_dotted hspace command
  · rw [List.append_assoc, List.singleton_append, canonical_blank hspace]
    exact isKnown_dotted hspace _

/-- A tag that is not known has no other spelling. -/
lemma canonical_of_unknown {tag : List Char} (h : isKnown (canonical tag) = false) :
    canonical tag = tag := by
  obtain htimeout | ⟨space, hspace, command, hform⟩ | hsame := canonical_cases tag
  · rw [htimeout] at h
    cases h
  · rw [hform, isKnown_dotted hspace] at h
    cases h
  · exact hsame

end Tag

namespace Event

def retagged (tag : String) : Json → Json
  | .object members => .object (Json.insertMember "type" (.text tag) members)
  | j => j

/-- Two values have the same members, their tags apart. -/
def SameBesideTag (j j' : Json) : Prop := ∀ key, key ≠ "type" → j.get? key = j'.get? key

lemma sameBesideTag_retagged (tag : String) (j : Json) : SameBesideTag (retagged tag j) j := by
  intro key hkey
  cases j with
  | object members =>
      change (Json.insertMember "type" (.text tag) members).lookup key = members.lookup key
      rw [Json.lookup_insertMember, if_neg hkey]
  | _ => rfl

lemma tag_retagged {j : Json} {old : Json} (h : j.get? "type" = some old) (tag : String) :
    (retagged tag j).get? "type" = some (.text tag) := by
  cases j with
  | object members =>
      change (Json.insertMember "type" (.text tag) members).lookup "type" = _
      rw [Json.lookup_insertMember, if_pos rfl]
  | _ => cases h

section

variable {j j' : Json} (h : SameBesideTag j j')

include h

lemma need_congr {α : Type} {key : String} (hkey : key ≠ "type") (read : Json → Option α) :
    need j key read = need j' key read := by
  rw [need, need, h key hkey]

lemma colorOfMembers?_congr : colorOfMembers? j = colorOfMembers? j' := by
  rw [colorOfMembers?_eq, colorOfMembers?_eq, opacity?, opacity?, h "a" (by decide),
    h "r" (by decide), h "g" (by decide), h "b" (by decide)]

/-- No canvas command is read from the tag of its record. -/
lemma canvasCommand_congr (tag : String) : canvasCommand tag j = canvasCommand tag j' := by
  unfold canvasCommand ellipse
  simp (disch := decide) only [need_congr h, colorOfMembers?_congr h]

lemma ofKnown_congr (tag : String) : ofKnown tag j = ofKnown tag j' := by
  unfold ofKnown
  simp (disch := decide) only [need_congr h, canvasCommand_congr h]

end

/-- Whatever its members are, a record with a known tag is no message. -/
lemma ofKnown_ne_message (tag : String) (j : Json) (kind value : String) :
    ofKnown tag j ≠ .ok (.message kind value) := by
  intro h
  unfold ofKnown at h
  dsimp only at h
  split at h
  · obtain ⟨line, -, h⟩ := bind_eq_ok.mp (mapError_eq_ok.mp h)
    obtain ⟨note, -, h⟩ := bind_eq_ok.mp h
    cases h
  · obtain ⟨note, -, h⟩ := bind_eq_ok.mp (mapError_eq_ok.mp h)
    cases h
  · cases h
  · obtain ⟨value, -, h⟩ := bind_eq_ok.mp (mapError_eq_ok.mp h)
    cases h
  · obtain ⟨start, -, h⟩ := bind_eq_ok.mp h
    obtain ⟨finish, -, h⟩ := bind_eq_ok.mp h
    obtain ⟨found, -, h⟩ := bind_eq_ok.mp h
    obtain ⟨color, -, h⟩ := bind_eq_ok.mp h
    cases h
  · obtain ⟨command, -, h⟩ := bind_eq_ok.mp (mapError_eq_ok.mp h)
    cases h

section

variable {j : Json} {tag : String} (htag : j.get? "type" = some (.text tag))

include htag

lemma ofRecord_of_known (h : Tag.isKnown (Tag.canonical tag.toList) = true) :
    ofRecord j = (ofKnown (String.ofList (Tag.canonical tag.toList)) j).map some := by
  rw [ofRecord, htag]
  exact if_pos h

lemma ofRecord_of_unknown (h : Tag.isKnown (Tag.canonical tag.toList) = false) :
    ofRecord j = .ok ((j.get? "value").map fun value => .message tag (valueText value)) := by
  rw [ofRecord, htag]
  exact if_neg (by rw [h]; exact Bool.false_ne_true)

/-- A record is read as it is with its tag in the canonical form. -/
lemma ofRecord_retagged :
    ofRecord (retagged (String.ofList (Tag.canonical tag.toList)) j) = ofRecord j := by
  have htag' := tag_retagged htag (String.ofList (Tag.canonical tag.toList))
  have hsame := sameBesideTag_retagged (String.ofList (Tag.canonical tag.toList)) j
  have hform : Tag.canonical (String.ofList (Tag.canonical tag.toList)).toList =
      Tag.canonical tag.toList := by
    rw [String.toList_ofList, Tag.canonical_canonical]
  cases hknown : Tag.isKnown (Tag.canonical tag.toList) with
  | true =>
      rw [ofRecord_of_known htag hknown, ofRecord_of_known htag' (by rw [hform, hknown]), hform,
        ofKnown_congr hsame]
  | false =>
      rw [ofRecord_of_unknown htag hknown, ofRecord_of_unknown htag' (by rw [hform, hknown]),
        hsame "value" (by decide), Tag.canonical_of_unknown hknown, String.ofList_toList]

end

/-- An older spelling of a tag means what the canonical one means. The canonical form of a tag
is its own canonical form. A record is read alike, as the same event, as no event or with the
same error, if its tag is replaced by the canonical form. If its tag is reserved it is neither a
message nor passed over, and if its tag is not known in any spelling it is always read. -/
theorem read_alike_in_every_spelling :
    (∀ tag : List Char, Tag.canonical (Tag.canonical tag) = Tag.canonical tag) ∧
    ∀ (j : Json) (tag : String), j.get? "type" = some (.text tag) →
      ofRecord (retagged (String.ofList (Tag.canonical tag.toList)) j) = ofRecord j ∧
      (Tag.Reserved tag.toList →
        ofRecord j ≠ .ok none ∧ ∀ kind value, ofRecord j ≠ .ok (some (.message kind value))) ∧
      (Tag.isKnown (Tag.canonical tag.toList) = false → ∃ e, ofRecord j = .ok e) := by
  refine ⟨Tag.canonical_canonical, fun j tag htag => ⟨ofRecord_retagged htag, ?_, ?_⟩⟩
  · intro hreserved
    rw [ofRecord_of_known htag (Tag.isKnown_of_reserved hreserved)]
    cases hread : ofKnown (String.ofList (Tag.canonical tag.toList)) j with
    | error fault => exact ⟨by simp [Except.map], by simp [Except.map]⟩
    | ok e =>
        refine ⟨by simp [Except.map], fun kind value heq => ?_⟩
        cases heq
        exact ofKnown_ne_message _ j kind value hread
  · intro hunknown
    exact ⟨_, ofRecord_of_unknown htag hunknown⟩

/-- A circle in an older spelling with two kinds of blanks, and a message. -/
theorem read_alike_of_circle :
    let circle := Json.object [("center", .array [.integer 3, .float 0.5]),
      ("shape", .array [.array [.integer 4]]), ("type", .text "canvas ellipse \u2003fill")]
    let note := Json.object [("type", .text "note"), ("value", .null)]
    (ofRecord (retagged "canvas.ellipseFill" circle) = ofRecord circle ∧
      ofRecord circle ≠ .ok none ∧
      ∀ kind value, ofRecord circle ≠ .ok (some (.message kind value))) ∧
    ∃ e, ofRecord note = .ok e := by
  intro circle note
  have hform : String.ofList (Tag.canonical "canvas ellipse \u2003fill".toList) =
      "canvas.ellipseFill" := by decide +kernel
  obtain ⟨hsame, hreserved, -⟩ :=
    read_alike_in_every_spelling.2 circle "canvas ellipse \u2003fill" rfl
  obtain ⟨-, -, hnote⟩ := read_alike_in_every_spelling.2 note "note" rfl
  rw [hform] at hsame
  exact ⟨⟨hsame, hreserved (by decide)⟩, hnote (by decide)⟩

end Event

end LogoStudio
