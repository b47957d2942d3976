import LogoStudio.Proofs.Json.Numerals

/-!
# Reading what was written

The text of a value is read as the value, provided its numbers are finite, its whole
numbers fit in 64 bits and it does not nest too deeply. Reading gives the members of
objects as they were written; sorting them is a step of its own.
-/
namespace LogoStudio.Json

open Text (hexDigit?_digitChar)

namespace Raw

lemma unit?_control {n : Nat} (h : n < 0x20) :
    unit? '0' '0' (Nat.digitChar (n / 16)) (Nat.digitChar (n % 16)) = some n := by
  have hzero : Text.hexDigit? '0' = some 0 := by decide
  simp only [unit?, hzero, hexDigit?_digitChar (show n / 16 < 16 by omega),
    hexDigit?_digitChar (show n % 16 < 16 by omega), Option.bind_eq_bind, Option.bind_some,
    Option.pure_def]
  congr 1
  omega

lemma readUnits?_plain {c : Char} (hcontrol : ¬c.toNat < 0x20) (hquote : c ≠ '"')
    (hslash : c ≠ '\\') (rest : List Char) :
    readUnits? (c :: rest) =
      (readUnits? rest).map fun (units, rest) => (c.toNat :: units, rest) := by
  conv_lhs => unfold readUnits?
  split
  · next heq => cases heq
  · next heq => exact absurd (List.cons.inj heq).1 hquote
  · next heq => exact absurd (List.cons.inj heq).1 hslash
  · next heq => exact absurd (List.cons.inj heq).1 hslash
  · next heq =>
      obtain ⟨rfl, rfl⟩ := List.cons.inj heq
      rw [if_neg (not_or.mpr ⟨hcontrol, hslash⟩)]
      cases readUnits? rest <;> rfl

lemma readUnits?_escape {c : Char} {unit : Nat} (h : escape? c = some unit) (rest : List Char) :
    readUnits? ('\\' :: c :: rest) =
      (readUnits? rest).map fun (units, rest) => (unit :: units, rest) := by
  have hu : c ≠ 'u' := by
    rintro rfl
    cases h
  conv_lhs => unfold readUnits?
  split
  · next heq => cases heq
  · next heq => exact absurd (List.cons.inj heq).1 (by decide)
  · next heq => exact absurd (List.cons.inj (List.cons.inj heq).2).1 hu
  · next heq =>
      obtain ⟨rfl, rfl⟩ := List.cons.inj (List.cons.inj heq).2
      rw [h]
      cases readUnits? rest <;> rfl
  · next hescape heq =>
      obtain ⟨rfl, rfl⟩ := List.cons.inj heq
      exact absurd rfl (hescape c rest rfl)

/-- A written character is read as one unit. -/
lemma readUnits?_writeChar (c : Char) (rest : List Char) :
    readUnits? (writeChar c ++ rest) =
      (readUnits? rest).map fun (units, rest) => (c.toNat :: units, rest) := by
  unfold writeChar
  split
  all_goals try exact readUnits?_escape rfl rest
  next hquote hslash _ _ _ _ _ =>
    split
    · next hcontrol =>
        change readUnits? ('\\' :: 'u' :: '0' :: '0' :: Nat.digitChar (c.toNat / 16) ::
          Nat.digitChar (c.toNat % 16) :: rest) = _
        rw [readUnits?, unit?_control hcontrol]
        cases readUnits? rest <;> rfl
    · next hcontrol => exact readUnits?_plain hcontrol hquote hslash rest

lemma readUnits?_flatMap (chars rest : List Char) :
    readUnits? (chars.flatMap writeChar ++ '"' :: rest) = some (chars.map Char.toNat, rest) := by
  induction chars with
  | nil => rfl
  | cons c chars ih =>
      rw [List.flatMap_cons, List.append_assoc, readUnits?_writeChar, ih]
      rfl

end Raw

/-- The units of characters are decoded as the characters: none is half of a pair. -/
lemma decodeUnits?_map_toNat (chars : List Char) :
    decodeUnits? (chars.map Char.toNat) = some chars := by
  have hsingle (c : Char) : ¬(0xd800 ≤ c.toNat ∧ c.toNat < 0xe000) := by
    have hvalid : c.toNat < 0xd800 ∨ 0xdfff < c.toNat ∧ c.toNat < 0x110000 := c.valid
    omega
  induction chars with
  | nil => rfl
  | cons c chars ih =>
      have hc := hsingle c
      cases chars with
      | nil =>
          rw [List.map_cons, List.map_nil, decodeUnits?, if_neg hc, Char.ofNat_toNat]
      | cons d chars =>
          rw [List.map_cons, List.map_cons, decodeUnits?, if_neg (by omega), if_neg (by omega),
            ← List.map_cons, ih, Char.ofNat_toNat]
          rfl

lemma decodeText?_toList (s : String) : decodeText? (s.toList.map Char.toNat) = some s := by
  rw [decodeText?, decodeUnits?_map_toNat, Option.map_some, String.ofList_toList]

lemma toList_writeText (s : String) (rest : List Char) :
    (writeText s).toList ++ rest = '"' :: (s.toList.flatMap writeChar ++ '"' :: rest) := by
  simp [writeText]

namespace Raw

lemma skip_skip (chars : List Char) : skip (skip chars) = skip chars :=
  List.dropWhile_idempotent ..

lemma readValue?_skip (fuel : Nat) (chars : List Char) :
    readValue? fuel (skip chars) = readValue? fuel chars := by
  cases fuel with
  | zero => rfl
  | succ fuel => rw [readValue?, readValue?, skip_skip]

lemma readItems?_skip (fuel : Nat) (chars : List Char) :
    readItems? fuel (skip chars) = readItems? fuel chars := by
  cases fuel with
  | zero => rfl
  | succ fuel => rw [readItems?, readItems?, readValue?_skip]

lemma readMembers?_skip (fuel : Nat) (chars : List Char) :
    readMembers? fuel (skip chars) = readMembers? fuel chars := by
  cases fuel with
  | zero => rfl
  | succ fuel => rw [readMembers?, readMembers?, skip_skip]

/-- No value starts with the bracket that closes an array. -/
lemma readItems?_close {fuel : Nat} {chars rest : List Char} (h : skip chars = ']' :: rest) :
    readItems? fuel chars = none := by
  cases fuel with
  | zero => rfl
  | succ fuel =>
      have hvalue : readValue? fuel chars = none := by
        cases fuel with
        | zero => rfl
        | succ fuel =>
            rw [readValue?, h]
            rfl
      rw [readItems?, hvalue]
      rfl

lemma readMembers?_close {fuel : Nat} {chars rest : List Char} (h : skip chars = '\x7d' :: rest) :
    readMembers? fuel chars = none := by
  cases fuel with
  | zero => rfl
  | succ fuel =>
      rw [readMembers?, h]
      rfl

lemma readValue?_array {fuel : Nat} {chars rest : List Char} {items : List Raw}
    (h : readItems? fuel chars = some (items, rest)) :
    readValue? (fuel + 1) ('[' :: chars) = some (.array items, rest) := by
  have hopen : skip ('[' :: chars) = '[' :: chars := rfl
  simp only [readValue?, hopen]
  split
  · next hclose =>
      rw [readItems?_close hclose] at h
      cases h
  · rw [readItems?_skip, h]
    rfl

lemma readValue?_object {fuel : Nat} {chars rest : List Char} {members : List (List Nat × Raw)}
    (h : readMembers? fuel chars = some (members, rest)) :
    readValue? (fuel + 1) ('\x7b' :: chars) = some (.object members, rest) := by
  have hopen : skip ('\x7b' :: chars) = '\x7b' :: chars := rfl
  simp only [readValue?, hopen]
  split
  · next hclose =>
      rw [readMembers?_close hclose] at h
      cases h
  · rw [readMembers?_skip, h]
    rfl

end Raw

/-- A value that a text can hold, with arrays and objects nested at most `depth` deep. -/
inductive Writable : Nat → Json → Prop
  | null {depth : Nat} : Writable depth .null
  | bool {depth : Nat} {b : Bool} : Writable depth (.bool b)
  | integer {depth : Nat} {k : Int} (hlow : -2 ^ 63 ≤ k) (hhigh : k < 2 ^ 64) :
      Writable depth (.integer k)
  | float {depth : Nat} {x : Float} (hfinite : x.isFinite = true) : Writable depth (.float x)
  | text {depth : Nat} {s : String} : Writable depth (.text s)
  | array {depth : Nat} {items : List Json} (hitems : ∀ item ∈ items, Writable depth item) :
      Writable (depth + 1) (.array items)
  | object {depth : Nat} {members : List (String × Json)}
      (hmembers : ∀ member ∈ members, Writable depth member.2) :
      Writable (depth + 1) (.object members)

/-- Wherever the text of a value stands, it is read as the value. -/
def ReadsBack (depth : Nat) (j : Json) : Prop :=
  ∀ (fuel : Nat) (rest : List Char), (write j).toList.length < fuel → Ends rest →
    ∃ raw, Raw.readValue? fuel ((write j).toList ++ rest) = some (raw, rest) ∧
      ofRaw? depth raw = some j

/-- Each element of an array is read in turn, the last one up to the bracket. -/
lemma readItems?_write {depth : Nat} {items : List Json} (hne : items ≠ [])
    (hitems : ∀ item ∈ items, ReadsBack depth item) {fuel : Nat}
    (hfuel : (",".intercalate (writeItems items)).toList.length + 1 < fuel) (rest : List Char) :
    ∃ raws, Raw.readItems? fuel ((",".intercalate (writeItems items)).toList ++ ']' :: rest) =
      some (raws, rest) ∧ ofItems? depth raws = some items := by
  induction items generalizing fuel with
  | nil => exact absurd rfl hne
  | cons item items ih =>
      obtain ⟨fuel, rfl⟩ : ∃ n, fuel = n + 1 := ⟨fuel - 1, by omega⟩
      have hitem := hitems item List.mem_cons_self
      cases items with
      | nil =>
          rw [writeItems, writeItems, String.intercalate_singleton] at hfuel ⊢
          obtain ⟨raw, hread, hraw⟩ := hitem fuel (']' :: rest) (by omega) (by simp [Ends])
          refine ⟨[raw], ?_, ?_⟩
          · rw [Raw.readItems?, hread]
            rfl
          · simp [ofItems?, hraw]
      | cons next items =>
          have hsplit : (",".intercalate (writeItems (item :: next :: items))).toList =
              (write item).toList ++
                ',' :: (",".intercalate (writeItems (next :: items))).toList := by
            simp [writeItems, String.intercalate_cons_cons]
          rw [hsplit, List.length_append, List.length_cons] at hfuel
          have hfuel' :
              (",".intercalate (writeItems (next :: items))).toList.length + 1 < fuel := by
            omega
          obtain ⟨raws, hreads, hraws⟩ :=
            ih (by simp) (fun j hj => hitems j (List.mem_cons_of_mem _ hj)) hfuel'
          obtain ⟨raw, hread, hraw⟩ := hitem fuel
            (',' :: ((",".intercalate (writeItems (next :: items))).toList ++ ']' :: rest))
            (by omega) (by simp [Ends])
          refine ⟨raw :: raws, ?_, ?_⟩
          · have hcomma (chars : List Char) : Raw.skip (',' :: chars) = ',' :: chars := rfl
            rw [hsplit, List.append_assoc, List.cons_append, Raw.readItems?, hread]
            simp only [Option.bind_eq_bind, Option.bind_some, hcomma, hreads]
            rfl
          · rw [ofItems?, hraw, hraws]
            rfl

/-- What is read of a member before the mark that ends it. -/
lemma readMembers?_member {fuel : Nat} {key : String} {value : List Char} {raw : Raw} {mark : Char}
    {rest : List Char} (hmark : mark = ',' ∨ mark = '\x7d')
    (h : Raw.readValue? fuel (value ++ mark :: rest) = some (raw, mark :: rest)) :
    Raw.readMembers? (fuel + 1) ((writeText key).toList ++ ':' :: (value ++ mark :: rest)) =
      if mark = ',' then (Raw.readMembers? fuel rest).map fun (members, rest) =>
        ((key.toList.map Char.toNat, raw) :: members, rest)
      else some ([(key.toList.map Char.toNat, raw)], rest) := by
  have hquote (chars : List Char) : Raw.skip ('"' :: chars) = '"' :: chars := rfl
  have hcolon (chars : List Char) : Raw.skip (':' :: chars) = ':' :: chars := rfl
  simp only [Raw.readMembers?, toList_writeText, hquote, Raw.readUnits?_flatMap, hcolon, h,
    Option.bind_eq_bind, Option.bind_some]
  obtain rfl | rfl := hmark
  · change (Raw.readMembers? fuel rest).bind _ = (Raw.readMembers? fuel rest).map _
    cases Raw.readMembers? fuel rest <;> rfl
  · rfl

/-- Each member of an object is read in turn, the last one up to the brace. -/
lemma readMembers?_write {depth : Nat} {members : List (String × Json)} (hne : members ≠ [])
    (hmembers : ∀ member ∈ members, ReadsBack depth member.2) {fuel : Nat}
    (hfuel : (",".intercalate (writeMembers members)).toList.length + 1 < fuel)
    (rest : List Char) :
    ∃ raws, Raw.readMembers? fuel ((",".intercalate (writeMembers members)).toList ++
      '\x7d' :: rest) = some (raws, rest) ∧ ofMembers? depth raws = some members := by
  induction members generalizing fuel with
  | nil => exact absurd rfl hne
  | cons member members ih =>
      obtain ⟨fuel, rfl⟩ : ∃ n, fuel = n + 1 := ⟨fuel - 1, by omega⟩
      obtain ⟨key, value⟩ := member
      have hvalue : ReadsBack depth value := hmembers (key, value) List.mem_cons_self
      have hkey := decodeText?_toList key
      cases members with
      | nil =>
          have htext : (",".intercalate (writeMembers [(key, value)])).toList =
              (writeText key).toList ++ ':' :: (write value).toList := by
            simp [writeMembers, writeMember, String.intercalate_singleton]
          rw [htext, List.length_append, List.length_cons] at hfuel
          obtain ⟨raw, hread, hraw⟩ := hvalue fuel ('\x7d' :: rest) (by omega) (by simp [Ends])
          refine ⟨[(key.toList.map Char.toNat, raw)], ?_, ?_⟩
          · rw [htext, List.append_assoc, List.cons_append, readMembers?_member (.inr rfl) hread]
            rfl
          · simp [ofMembers?, ofMember?, hkey, hraw]
      | cons next members =>
          have hsplit : (",".intercalate (writeMembers ((key, value) :: next :: members))).toList =
              (writeText key).toList ++ ':' :: ((write value).toList ++
                ',' :: (",".intercalate (writeMembers (next :: members))).toList) := by
            simp [writeMembers, writeMember, String.intercalate_cons_cons]
          rw [hsplit, List.length_append, List.length_cons, List.length_append,
            List.length_cons] at hfuel
          have hfuel' : (",".intercalate (writeMembers (next :: members))).toList.length + 1 <
              fuel := by
            omega
          obtain ⟨raws, hreads, hraws⟩ :=
            ih (by simp) (fun m hm => hmembers m (List.mem_cons_of_mem _ hm)) hfuel'
          obtain ⟨raw, hread, hraw⟩ := hvalue fuel
            (',' :: ((",".intercalate (writeMembers (next :: members))).toList ++ '\x7d' :: rest))
            (by omega) (by simp [Ends])
          refine ⟨(key.toList.map Char.toNat, raw) :: raws, ?_, ?_⟩
          · rw [hsplit]
            simp only [List.append_assoc, List.cons_append]
            rw [readMembers?_member (.inl rfl) hread, hreads]
            rfl
          · rw [ofMembers?, ofMember?, hkey, hraw, hraws]
            rfl

/-- The text of a value is read as the value. -/
theorem readsBack_of_writable {depth : Nat} {j : Json} (h : Writable depth j) :
    ReadsBack depth j := by
  induction h with
  | null =>
      intro fuel rest hfuel _
      obtain ⟨fuel, rfl⟩ : ∃ n, fuel = n + 1 := ⟨fuel - 1, by omega⟩
      exact ⟨.null, by rw [write]; rfl, rfl⟩
  | @bool depth b =>
      intro fuel rest hfuel _
      obtain ⟨fuel, rfl⟩ : ∃ n, fuel = n + 1 := ⟨fuel - 1, by omega⟩
      exact ⟨.bool b, by cases b <;> (rw [write]; rfl), rfl⟩
  | integer hlow hhigh =>
      intro fuel rest hfuel hrest
      obtain ⟨fuel, rfl⟩ : ∃ n, fuel = n + 1 := ⟨fuel - 1, by omega⟩
      obtain ⟨n, hread, hvalue⟩ := readValue?_integer hlow hhigh hrest fuel
      exact ⟨.number n, hread, by rw [ofRaw?, hvalue]⟩
  | float hfinite =>
      intro fuel rest hfuel hrest
      obtain ⟨fuel, rfl⟩ : ∃ n, fuel = n + 1 := ⟨fuel - 1, by omega⟩
      obtain ⟨n, hread, hvalue⟩ := readValue?_numberText hfinite hrest fuel
      exact ⟨.number n, by rw [write, hread], by rw [ofRaw?, hvalue]⟩
  | @text depth s =>
      intro fuel rest hfuel _
      obtain ⟨fuel, rfl⟩ : ∃ n, fuel = n + 1 := ⟨fuel - 1, by omega⟩
      refine ⟨.text (s.toList.map Char.toNat), ?_, ?_⟩
      · rw [write, toList_writeText]
        change (Raw.readUnits? _).map _ = _
        rw [Raw.readUnits?_flatMap]
        rfl
      · rw [ofRaw?, decodeText?_toList]
        rfl
  | @array depth items _ ih =>
      intro fuel rest hfuel _
      obtain ⟨fuel, rfl⟩ : ∃ n, fuel = n + 1 := ⟨fuel - 1, by omega⟩
      have htext : (write (.array items)).toList =
          '[' :: ((",".intercalate (writeItems items)).toList ++ [']']) := by
        simp [write]
      rw [htext, List.length_cons, List.length_append, List.length_singleton] at hfuel
      rw [htext, List.cons_append, List.append_assoc]
      by_cases hne : items = []
      · subst hne
        exact ⟨.array [], rfl, rfl⟩
      · obtain ⟨raws, hread, hraws⟩ := readItems?_write hne ih (by omega : _ < fuel) rest
        refine ⟨.array raws, Raw.readValue?_array hread, ?_⟩
        rw [ofRaw?, if_neg (by omega), Nat.add_sub_cancel, hraws]
        rfl
  | @object depth members _ ih =>
      intro fuel rest hfuel _
      obtain ⟨fuel, rfl⟩ : ∃ n, fuel = n + 1 := ⟨fuel - 1, by omega⟩
      have htext : (write (.object members)).toList =
          '\x7b' :: ((",".intercalate (writeMembers members)).toList ++ ['\x7d']) := by
        simp [write]
      rw [htext, List.length_cons, List.length_append, List.length_singleton] at hfuel
      rw [htext, List.cons_append, List.append_assoc]
      by_cases hne : members = []
      · subst hne
        exact ⟨.object [], rfl, rfl⟩
      · obtain ⟨raws, hread, hraws⟩ := readMembers?_write hne ih (by omega : _ < fuel) rest
        refine ⟨.object raws, Raw.readValue?_object hread, ?_⟩
        rw [ofRaw?, if_neg (by omega), Nat.add_sub_cancel, hraws]
        rfl

/-- A whole text holds the value that was written. -/
theorem parse?_write {j : Json} (h : Writable maxDepth j) : parse? (write j) = some j := by
  obtain ⟨raw, hread, hraw⟩ := readsBack_of_writable h (2 * (write j).toList.length + 2) []
    (by omega) (by simp [Ends])
  rw [List.append_nil] at hread
  rw [parse?, Raw.read?, hread]
  exact hraw

lemma normalItems_eq_map (items : List Json) : normalItems items = items.map normal := by
  induction items with
  | nil => rfl
  | cons item items ih => rw [normalItems, ih, List.map_cons]

lemma normalMembers_eq_map (members : List (String × Json)) :
    normalMembers members = members.map fun m => (m.1, m.2.normal) := by
  induction members with
  | nil => rfl
  | cons member members ih => rw [normalMembers, ih, List.map_cons, normalMember]

lemma lookup_cons (key k : String) (v : Json) (members : List (String × Json)) :
    ((k, v) :: members).lookup key = if key = k then some v else members.lookup key := by
  rw [List.lookup_cons]
  by_cases h : key = k
  · simp [h]
  · rw [beq_false_of_ne h, if_neg h]

lemma lookup_insertMember (key k : String) (v : Json) (members : List (String × Json)) :
    (insertMember k v members).lookup key = if key = k then some v else members.lookup key := by
  induction members with
  | nil => exact lookup_cons key k v []
  | cons member members ih =>
      obtain ⟨k', v'⟩ := member
      rw [insertMember]
      split
      · exact lookup_cons key k v _
      split
      · next heq =>
          subst heq
          rw [lookup_cons, lookup_cons]
          split <;> rfl
      · next hne =>
          rw [lookup_cons, lookup_cons, ih]
          split
          · next heq =>
              subst heq
              rw [if_neg (Ne.symm hne)]
          · rfl

/-- Sorting keeps the last member of each key. -/
lemma lookup_sortMembers (key : String) (members : List (String × Json)) :
    (sortMembers members).lookup key = members.reverse.lookup key := by
  suffices h : ∀ sorted : List (String × Json),
      (members.foldl (fun sorted member => insertMember member.1 member.2 sorted)
        sorted).lookup key = (members.reverse.lookup key).or (sorted.lookup key) by
    have hnil := h []
    rw [List.lookup_nil, Option.or_none] at hnil
    exact hnil
  induction members with
  | nil => exact fun sorted => rfl
  | cons member members ih =>
      intro sorted
      rw [List.foldl_cons, ih, lookup_insertMember, List.reverse_cons, List.lookup_append,
        Option.or_assoc, lookup_cons]
      congr 1
      split <;> rfl

lemma lookup_of_mem {members : List (String × Json)} (hdistinct : (members.map Prod.fst).Nodup)
    {key : String} {v : Json} (h : (key, v) ∈ members) : members.lookup key = some v := by
  induction members with
  | nil => cases h
  | cons member members ih =>
      obtain ⟨k, v'⟩ := member
      rw [List.map_cons, List.nodup_cons] at hdistinct
      rw [lookup_cons]
      obtain heq | hmem := List.mem_cons.mp h
      · cases heq
        exact if_pos rfl
      · have hne : key ≠ k := by
          rintro rfl
          exact hdistinct.1 (List.mem_map.mpr ⟨_, hmem, rfl⟩)
        rw [if_neg hne, ih hdistinct.2 hmem]

lemma get?_object_of_mem {members : List (String × Json)}
    (hdistinct : (members.map Prod.fst).Nodup) {key : String} {v : Json} (h : (key, v) ∈ members) :
    (object members).get? key = some v := lookup_of_mem hdistinct h

/-- The normal form of an object has the normal forms of its members. -/
lemma get?_normal_of_mem {members : List (String × Json)}
    (hdistinct : (members.map Prod.fst).Nodup) {key : String} {v : Json} (h : (key, v) ∈ members) :
    (object members).normal.get? key = some v.normal := by
  change (sortMembers (normalMembers members)).lookup key = _
  rw [lookup_sortMembers, normalMembers_eq_map]
  apply lookup_of_mem
  · rw [List.map_reverse, List.nodup_reverse, List.map_map]
    exact hdistinct
  · rw [List.mem_reverse, List.mem_map]
    exact ⟨(key, v), h, rfl⟩

end LogoStudio.Json
