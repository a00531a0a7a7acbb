import McpAssistant.BusinessQuery.SealedEvents

/-!
# Metadata determine the fields of an event

Two events whose metadata print alike have the same fields, where datetimes
print differently and the detail evidence has the digest it names.
-/

namespace McpAssistant.BusinessQuery.EventMetadata

open Foundations.JsonReading Foundations.JsonText
open EvidenceSealing (EventValueKind ResultMember)
open ExecutionEvents SealedEvents

variable {first second : Entries}

theorem entries_eq_of_lookup (names : first.map Prod.fst = second.map Prod.fst)
    (distinct : (first.map Prod.fst).Nodup)
    (same : ∀ name, first.lookup name = second.lookup name) : first = second := by
  induction first generalizing second with
  | nil => exact (List.map_eq_nil_iff.mp names.symm).symm
  | cons entry rest ih =>
    cases second with
    | nil => cases names
    | cons other others =>
      rcases entry with ⟨name, value⟩
      rcases other with ⟨again, held⟩
      obtain ⟨sameName, sameNames⟩ := List.cons.inj names
      change name = again at sameName
      subst sameName
      have ⟨fresh, rest_distinct⟩ := List.nodup_cons.mp distinct
      have sameValue := same name
      rw [List.lookup_cons_self, List.lookup_cons_self] at sameValue
      cases sameValue
      rw [ih sameNames rest_distinct fun key => ?_]
      by_cases isName : key = name
      · have absent {entries : Entries} (missing : name ∉ entries.map Prod.fst) :
            entries.lookup name = none := by
          apply List.lookup_eq_none_iff.mpr
          intro entry member
          have different : name ≠ entry.1 := fun equal =>
            missing (equal ▸ List.mem_map_of_mem member)
          simpa using different
        rw [isName, absent fresh, absent (sameNames ▸ fresh)]
      · have later := same key
        rwa [lookup_cons_of_ne isName, lookup_cons_of_ne isName] at later

theorem sortValues_eq_of_lookup (names : first.map Prod.fst = second.map Prod.fst)
    (distinct : (first.map Prod.fst).Nodup)
    (same : ∀ name, (first.lookup name).map sortKeys = (second.lookup name).map sortKeys) :
    sortValues first = sortValues second := by
  apply entries_eq_of_lookup
  · rw [keys_sortValues, keys_sortValues, names]
  · rw [keys_sortValues]
    exact distinct
  · intro name
    rw [lookup_sortValues, lookup_sortValues, same]

theorem lookup_eq_of_sortedEntries (firstDistinct : (first.map Prod.fst).Nodup)
    (secondDistinct : (second.map Prod.fst).Nodup)
    (same : sortedEntries first = sortedEntries second) (name : String) :
    (first.lookup name).map sortKeys = (second.lookup name).map sortKeys := by
  rw [← lookup_sortedEntries firstDistinct, ← lookup_sortedEntries secondDistinct, same]

theorem sortKeys_optionalText (text : Option String) :
    sortKeys (optionalText text) = optionalText text := by
  cases text <;> rfl

theorem sortKeys_optionalCount (count : Option Nat) :
    sortKeys (optionalCount count) = optionalCount count := by
  cases count <;> rfl

theorem sortKeys_optionalMs (duration : Option Milliseconds) :
    sortKeys (optionalMs duration) = optionalMs duration := by
  cases duration <;> rfl

theorem optionalText_inj {first second : Option String} :
    optionalText first = optionalText second ↔ first = second := by
  cases first <;> cases second <;> simp [optionalText]

theorem optionalCount_inj {first second : Option Nat} :
    optionalCount first = optionalCount second ↔ first = second := by
  cases first <;> cases second <;> simp [optionalCount]

theorem optionalMs_inj {first second : Option Milliseconds} :
    optionalMs first = optionalMs second ↔ first = second := by
  cases first with
  | none => cases second <;> simp [optionalMs]
  | some first =>
    cases second with
    | none => simp [optionalMs]
    | some second =>
      cases first
      cases second
      simp [optionalMs]

theorem payloadMode_inj {first second : EventPayloadMode} :
    first.name = second.name ↔ first = second := by
  cases first <;> cases second <;> decide

theorem classification_inj {first second : PayloadClassification} :
    first.name = second.name ↔ first = second := by
  cases first <;> cases second <;> decide

theorem completeness_inj {first second : ResultCompleteness} :
    first.name = second.name ↔ first = second := by
  cases first <;> cases second <;> decide

theorem coverage_inj {first second : CoverageStatus} :
    first.name = second.name ↔ first = second := by
  cases first <;> cases second <;> decide

theorem kindName_inj {first second : EventValueKind} :
    kindName first = kindName second ↔ first = second := by
  cases first <;> cases second <;> decide

theorem items_eq_of_sorted {Item : Type} {print : Item → Json}
    (injective : ∀ first second, sortKeys (print first) = sortKeys (print second) →
      first = second) {first second : List Item} :
    sortItems (first.map print) = sortItems (second.map print) ↔ first = second := by
  constructor
  · intro same
    induction first generalizing second with
    | nil =>
      cases second with
      | nil => rfl
      | cons item items => cases same
    | cons item items ih =>
      cases second with
      | nil => cases same
      | cons other others =>
        obtain ⟨sameItem, sameItems⟩ := List.cons.inj same
        rw [injective _ _ sameItem, ih sameItems]
  · intro same
    rw [same]

theorem sortValues_eq_of_dict (names : first.map Prod.fst = second.map Prod.fst)
    (distinct : (first.map Prod.fst).Nodup)
    (same : sortKeys (.dict first) = sortKeys (.dict second)) :
    sortValues first = sortValues second :=
  sortValues_eq_of_lookup names distinct
    (lookup_eq_of_sortedEntries distinct (names ▸ distinct) (Json.dict.inj same))

theorem member_eq_of_json (first second : ResultMember)
    (same : sortKeys (.dict (dumpMember first)) =
      sortKeys (.dict (dumpMember second))) : first = second := by
  have distinct : ((dumpMember first).map Prod.fst).Nodup := by
    show ["name", "value_kind", "nullable"].Nodup
    decide
  have names : (dumpMember first).map Prod.fst = (dumpMember second).map Prod.fst := rfl
  have values := sortValues_eq_of_dict names distinct same
  simp only [dumpMember, sortValues, sortKeys, List.cons.injEq, Prod.mk.injEq,
    Json.text.injEq, Json.boolean.injEq, kindName_inj, true_and, and_true] at values
  obtain ⟨sameName, sameKind, sameNullable⟩ := values
  cases first
  cases second
  cases sameName
  cases sameKind
  cases sameNullable
  rfl

theorem detail_eq_of_json (first second : DetailEvidence)
    (same : sortKeys (.dict first.dump) = sortKeys (.dict second.dump)) :
    first = second := by
  have distinct : (first.dump.map Prod.fst).Nodup := by
    show ["family", "owner_resource", "owner_ref_digest", "revision_digest",
      "definition_digest", "profile_digest", "coverage_status",
      "coverage_digest", "provenance_digest"].Nodup
    decide +kernel
  have names : first.dump.map Prod.fst = second.dump.map Prod.fst := rfl
  have values := sortValues_eq_of_dict names distinct same
  simp only [DetailEvidence.dump, sortValues, sortKeys, sortKeys_optionalText,
    optionalText_inj, List.cons.injEq, Prod.mk.injEq, Json.text.injEq, true_and,
    and_true] at values
  cases first
  cases second
  simpa using values

theorem details_inj {first second : List DetailEvidence} :
    sortKeys (detailsJson first) = sortKeys (detailsJson second) ↔ first = second := by
  rw [detailsJson, detailsJson, sortKeys, sortKeys, Json.list.injEq,
    items_eq_of_sorted detail_eq_of_json]

theorem families_inj {first second : List String} :
    sortItems (first.map Json.text) = sortItems (second.map Json.text) ↔ first = second :=
  @items_eq_of_sorted _ Json.text (fun _ _ same => Json.text.inj same) _ _

theorem members_inj {first second : List ResultMember} :
    sortItems (first.map fun member => .dict (dumpMember member)) =
        sortItems (second.map fun member => .dict (dumpMember member)) ↔
      first = second :=
  items_eq_of_sorted member_eq_of_json

variable {stampText : Stamp → String}

theorem fields_eq_of_dump (injective : Function.Injective stampText) {first second : EventFields}
    (same : sortValues (first.dump stampText) =
      sortValues (second.dump stampText)) : first = second := by
  simp only [EventFields.dump, sortValues, details_inj, sortKeys_optionalText,
    sortKeys_optionalCount, sortKeys_optionalMs, sortKeys, members_inj,
    families_inj, List.cons.injEq, Prod.mk.injEq, Json.text.injEq,
    Json.list.injEq, Json.integer.injEq, Json.boolean.injEq, optionalText_inj,
    optionalCount_inj, optionalMs_inj, injective.eq_iff, payloadMode_inj,
    classification_inj, completeness_inj, coverage_inj, Int.natCast_inj, true_and,
    and_true] at same
  cases first
  cases second
  simpa using same

theorem lookup_metadata (stampText : Stamp → String) (fields : EventFields) (name : String) :
    (fields.metadata stampText).lookup name =
      if fields.detailEvidence.isEmpty ∧
          (name = "detail_evidence" ∨ name = "detail_evidence_digest") then none
      else (fields.dump stampText).lookup name := by
  unfold EventFields.metadata
  split
  · rename_i empty
    have kept := @lookup_filter_keys _ (fields.dump stampText) name
      fun name => decide (name ≠ "detail_evidence" ∧ name ≠ "detail_evidence_digest")
    apply kept.trans
    have keeps : decide (name ≠ "detail_evidence" ∧ name ≠ "detail_evidence_digest") =
        true ↔ ¬ (name = "detail_evidence" ∨ name = "detail_evidence_digest") := by
      rw [decide_eq_true_iff, not_or]
    by_cases ofDetails : name = "detail_evidence" ∨ name = "detail_evidence_digest"
    · rw [if_neg fun kept => keeps.mp kept ofDetails, if_pos ⟨empty, ofDetails⟩]
    · rw [if_pos (keeps.mpr ofDetails), if_neg fun both => ofDetails both.2]
  · rename_i nonempty
    rw [if_neg fun both => nonempty both.1]

theorem details_eq_of_metadata {first second : EventFields}
    (same : ∀ name, ((first.metadata stampText).lookup name).map sortKeys =
      ((second.metadata stampText).lookup name).map sortKeys) :
    first.detailEvidence = second.detailEvidence := by
  have found := same "detail_evidence"
  rw [lookup_metadata, lookup_metadata] at found
  have dumped (fields : EventFields) :
      (fields.dump stampText).lookup "detail_evidence" =
        some (detailsJson fields.detailEvidence) := rfl
  rw [dumped, dumped] at found
  cases isFirst : first.detailEvidence with
  | nil =>
    cases isSecond : second.detailEvidence with
    | nil => rfl
    | cons detail details =>
      rw [isFirst, isSecond] at found
      cases found
  | cons detail details =>
    cases isSecond : second.detailEvidence with
    | nil =>
      rw [isFirst, isSecond] at found
      cases found
    | cons other others =>
      rw [isFirst, isSecond] at found
      exact details_inj.mp (Option.some.inj found)

theorem fields_eq_of_metadata {Key Bytes : Type} {lib : Libraries Key Bytes}
    (injective : Function.Injective lib.stampText) {first second : EventFields}
    (firstDetails : detailEvidenceDigest lib first.detailEvidence = .ok first.detailEvidenceDigest)
    (secondDetails : detailEvidenceDigest lib second.detailEvidence =
      .ok second.detailEvidenceDigest)
    (same : sortedEntries (first.metadata lib.stampText) =
      sortedEntries (second.metadata lib.stampText)) : first = second := by
  have found := lookup_eq_of_sortedEntries (nodup_metadata lib.stampText first)
    (nodup_metadata lib.stampText second) same
  have details := details_eq_of_metadata found
  have digests : first.detailEvidenceDigest = second.detailEvidenceDigest := by
    rw [details, secondDetails] at firstDetails
    exact (Except.ok.inj firstDetails).symm
  apply fields_eq_of_dump injective
  apply sortValues_eq_of_lookup
  · rw [names_dump, names_dump]
  · rw [names_dump]
    exact nodup_fieldNames
  · intro name
    by_cases ofDetails : name = "detail_evidence" ∨ name = "detail_evidence_digest"
    · rcases ofDetails with rfl | rfl
      · show some (sortKeys (detailsJson _)) = some (sortKeys (detailsJson _))
        rw [details]
      · show some (Json.text _) = some (Json.text _)
        rw [digests]
    · have other := found name
      rwa [lookup_metadata, lookup_metadata, if_neg fun both => ofDetails both.2,
        if_neg fun both => ofDetails both.2] at other

end McpAssistant.BusinessQuery.EventMetadata
