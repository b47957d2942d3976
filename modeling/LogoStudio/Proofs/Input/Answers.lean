import LogoStudio.Input
import LogoStudio.Proofs.Json.Grammar

/-!
# Answers from the command line

An answer on the command line is told by its text alone. The word of a boolean among blanks
is a confirmation, the text of an object with a `classname` is an interaction, and so is
the text of an array that lists the name and perhaps the event. Every other text answers a
prompt, and answers it as it stands.
-/
namespace LogoStudio

open Json (Spelt)

/-- The event of the interaction is the one of the list, or null if the list has none. -/
def Interaction.HasEvent (i : Interaction) (events : List Json) : Prop :=
  events = [] ∧ i.event = .null ∨ ∃ event, events = [event] ∧ i.event = event.normal

namespace Input

/-- The text is the word of the boolean, with blanks around it. -/
def Confirms (text : String) (b : Bool) : Prop :=
  ∃ lead trail, Json.Raw.Blank lead ∧ Json.Raw.Blank trail ∧
    text.toList = lead ++ (Json.Raw.boolWord b ++ trail)

/-- The text spells an object with one `classname`, the name of the interaction, and at
most one `event`. -/
def Describes (text : String) (i : Interaction) : Prop :=
  ∃ members, Spelt text (.object members) ∧ valuesOf "classname" members = [.text i.name] ∧
    i.HasEvent (valuesOf "event" members)

/-- The text spells an array of the name of the interaction and at most one event. -/
def Lists (text : String) (i : Interaction) : Prop :=
  ∃ events, Spelt text (.array (.text i.name :: events)) ∧ i.HasEvent events

/-- What the text is meant to answer: a confirmation, an interaction if it spells an object
that describes one, and a prompt otherwise. -/
inductive Meant (text : String) : Input → Prop
  | confirm {b : Bool} (h : Confirms text b) : Meant text (.confirm b)
  | interaction {i : Interaction} (h : Describes text i) : Meant text (.interaction i)
  | prompt (hconfirm : ∀ b, ¬Confirms text b) (hinteraction : ∀ i, ¬Describes text i) :
      Meant text (.prompt text)

lemma interactionOfMembers?_eq_some_iff {members : List (String × Json)} {i : Interaction} :
    interactionOfMembers? members = some i ↔
      valuesOf "classname" members = [.text i.name] ∧ i.HasEvent (valuesOf "event" members) := by
  obtain ⟨name, event⟩ := i
  unfold interactionOfMembers?
  constructor
  · intro h
    split at h
    · next hname hevent =>
        cases h
        exact ⟨hname, .inl ⟨hevent, rfl⟩⟩
    · next hname hevent =>
        cases h
        exact ⟨hname, .inr ⟨_, hevent, rfl⟩⟩
    · cases h
  · rintro ⟨hname, ⟨hnone, rfl⟩ | ⟨event, hevent, rfl⟩⟩
    · rw [hname, hnone]
    · rw [hname, hevent]

lemma ofJson?_eq_confirm {j : Json} {b : Bool} : ofJson? j = some (.confirm b) ↔ j = .bool b := by
  constructor
  · intro h
    unfold ofJson? at h
    split at h
    · cases h
      rfl
    all_goals simp_all
  · rintro rfl
    rfl

lemma ofJson?_eq_interaction {j : Json} {i : Interaction} :
    ofJson? j = some (.interaction i) ↔
      (∃ members, j = .object members ∧ valuesOf "classname" members = [.text i.name] ∧
        i.HasEvent (valuesOf "event" members)) ∨
      ∃ events, j = .array (.text i.name :: events) ∧ i.HasEvent events := by
  constructor
  · intro h
    unfold ofJson? at h
    split at h
    · cases h
    · cases h
    · next members =>
        obtain ⟨interaction, hmembers, heq⟩ := Option.map_eq_some_iff.mp h
        cases heq
        exact .inl ⟨members, rfl, interactionOfMembers?_eq_some_iff.mp hmembers⟩
    · cases h
      exact .inr ⟨[], rfl, .inl ⟨rfl, rfl⟩⟩
    · cases h
      exact .inr ⟨[_], rfl, .inr ⟨_, rfl, rfl⟩⟩
    · cases h
  · obtain ⟨name, event⟩ := i
    rintro (⟨members, rfl, hmembers⟩ | ⟨events, rfl, ⟨rfl, rfl⟩ | ⟨event, rfl, rfl⟩⟩)
    · rw [ofJson?, interactionOfMembers?_eq_some_iff.mpr hmembers, Option.map_some]
    · rfl
    · rfl

lemma read?_eq_some_iff {text : String} {input : Input} :
    read? text = some input ↔ ∃ j, Spelt text j ∧ ofJson? j = some input := by
  rw [read?, Option.bind_eq_some_iff]
  exact exists_congr fun j => and_congr_left fun _ => Json.parse?_eq_some_iff

lemma read?_eq_confirm {text : String} {b : Bool} :
    read? text = some (.confirm b) ↔ Confirms text b := by
  simp only [read?_eq_some_iff, ofJson?_eq_confirm, exists_eq_right]
  exact Json.spelt_bool_iff

lemma read?_eq_interaction {text : String} {i : Interaction} :
    read? text = some (.interaction i) ↔ Describes text i ∨ Lists text i := by
  rw [read?_eq_some_iff]
  constructor
  · rintro ⟨j, hspelt, hj⟩
    obtain ⟨members, rfl, hmembers⟩ | ⟨events, rfl, hevents⟩ := ofJson?_eq_interaction.mp hj
    · exact .inl ⟨members, hspelt, hmembers⟩
    · exact .inr ⟨events, hspelt, hevents⟩
  · rintro (⟨members, hspelt, hmembers⟩ | ⟨events, hspelt, hevents⟩)
    · exact ⟨_, hspelt, ofJson?_eq_interaction.mpr (.inl ⟨members, rfl, hmembers⟩)⟩
    · exact ⟨_, hspelt, ofJson?_eq_interaction.mpr (.inr ⟨events, rfl, hevents⟩)⟩

lemma ofArgument_eq_confirm {text : String} {b : Bool} :
    ofArgument text = .confirm b ↔ Confirms text b := by
  rw [← read?_eq_confirm, ofArgument]
  split
  · next hread => simp [hread]
  · next hread => simp [hread]
  · next hconfirm _ => simpa using hconfirm b

lemma ofArgument_eq_interaction {text : String} {i : Interaction} :
    ofArgument text = .interaction i ↔ Describes text i ∨ Lists text i := by
  rw [← read?_eq_interaction, ofArgument]
  split
  · next hread => simp [hread]
  · next hread => simp [hread]
  · next _ hinteraction => simpa using hinteraction i

/-- A prompt is answered by the text as it stands. -/
lemma eq_of_ofArgument_eq_prompt {text answer : String} (h : ofArgument text = .prompt answer) :
    answer = text := by
  unfold ofArgument at h
  split at h
  · cases h
  · cases h
  · cases h
    rfl

lemma ofArgument_eq_prompt {text answer : String} :
    ofArgument text = .prompt answer ↔
      answer = text ∧ (∀ b, ¬Confirms text b) ∧ ∀ i, ¬(Describes text i ∨ Lists text i) := by
  constructor
  · intro h
    refine ⟨eq_of_ofArgument_eq_prompt h, fun b hb => ?_, fun i hi => ?_⟩
    · rw [ofArgument_eq_confirm.mpr hb] at h
      cases h
    · rw [ofArgument_eq_interaction.mpr hi] at h
      cases h
  · rintro ⟨rfl, hconfirm, hinteraction⟩
    cases h : ofArgument answer with
    | confirm b => exact absurd (ofArgument_eq_confirm.mp h) (hconfirm b)
    | interaction i => exact absurd (ofArgument_eq_interaction.mp h) (hinteraction i)
    | prompt answer' => rw [eq_of_ofArgument_eq_prompt h]

/-- No text spells both an object and an array. -/
lemma Lists.not_describes {text : String} {i : Interaction} (h : Lists text i)
    (i' : Interaction) : ¬Describes text i' := by
  rintro ⟨members, hobject, -⟩
  obtain ⟨events, harray, -⟩ := h
  rw [← Json.parse?_eq_some_iff] at hobject harray
  rw [hobject] at harray
  cases harray

lemma meant_ofArgument_iff {text : String} :
    Meant text (ofArgument text) ↔ ∀ i, ¬Lists text i := by
  constructor
  · intro hmeant i hlists
    rw [ofArgument_eq_interaction.mpr (.inr hlists)] at hmeant
    cases hmeant with
    | interaction hdescribes => exact hlists.not_describes i hdescribes
  · intro hnone
    cases h : ofArgument text with
    | confirm b => exact .confirm (ofArgument_eq_confirm.mp h)
    | interaction i =>
        exact .interaction ((ofArgument_eq_interaction.mp h).resolve_right (hnone i))
    | prompt answer =>
        obtain ⟨rfl, hconfirm, hinteraction⟩ := ofArgument_eq_prompt.mp h
        exact .prompt hconfirm fun i hi => hinteraction i (.inl hi)

/-- A text is a confirmation exactly when it is the word of a boolean, and an interaction
exactly when it spells an object that describes one or an array that lists one. Every other
text answers a prompt unchanged. So a text answers what it is meant to exactly when it lists
no interaction. -/
theorem ofArgument_told_by_text (text : String) :
    (∀ b, ofArgument text = .confirm b ↔ Confirms text b) ∧
    (∀ i, ofArgument text = .interaction i ↔ Describes text i ∨ Lists text i) ∧
    (∀ answer, ofArgument text = .prompt answer ↔
      answer = text ∧ (∀ b, ¬Confirms text b) ∧ ∀ i, ¬(Describes text i ∨ Lists text i)) ∧
    (Meant text (ofArgument text) ↔ ∀ i, ¬Lists text i) :=
  ⟨fun _ => ofArgument_eq_confirm, fun _ => ofArgument_eq_interaction,
    fun _ => ofArgument_eq_prompt, meant_ofArgument_iff⟩

/-- An array of a name is taken for an interaction, though it spells no object. -/
theorem ofArgument_takes_array :
    ofArgument "[\"canvas.mousedown\"]" = .interaction ⟨"canvas.mousedown", .null⟩ ∧
      ∀ members, ¬Spelt "[\"canvas.mousedown\"]" (.object members) := by
  have hwrite : Json.write (.array [.text "canvas.mousedown"]) = "[\"canvas.mousedown\"]" := by
    decide +kernel
  have hwritable : Json.Writable Json.maxDepth (.array [.text "canvas.mousedown"]) :=
    .array (by simp [Json.Writable.text])
  have hparse := hwrite ▸ Json.parse?_write hwritable
  constructor
  · rw [ofArgument, read?, hparse]
    rfl
  · intro members hspelt
    rw [← Json.parse?_eq_some_iff, hparse] at hspelt
    cases hspelt

end Input

end LogoStudio
