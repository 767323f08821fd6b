import BridgeFinder.Proofs.Cloud.Listing
import BridgeFinder.Proofs.ConfigDocument.Written
import BridgeFinder.Proofs.Json.Printing
import BridgeFinder.Proofs.Json.Rearranged

/-!
# What makes no difference in an answer

Both the document of a bridge and the entries of the cloud's list are taken from objects that may
have been written in many ways.  The order of their members makes no difference, nor do members with
other names, nor the blanks between the tokens, nor whether an absent text is left out or written as
`null`.  What spoils an object is a text that is given twice, or a member without a name.
-/

namespace BridgeFinder

open Json (HasMembers IsArray IsObject Rearranged Exchanged Spoiled)

theorem confirm?_eq_bind (ip body : String) :
    confirm? ip body = (ConfigDocument.parse body).toOption.bind (ConfigDocument.bridge? ip) := by
  rw [confirm?]
  cases ConfigDocument.parse body <;> rfl

theorem Cloud.toOption_candidates (body : String) :
    (candidates body).toOption = (Json.decode (Json.list Entry.record.read) body).toOption.map
      fun entries => entries.filterMap Entry.candidate? := by
  rw [candidates]
  cases Json.decode (Json.list Entry.record.read) body <;> rfl

/-- The account of what makes no difference in an answer.  Every object has members.  A bridge that
is confirmed by an object is confirmed as well by one with rearranged members, whatever the blanks
are; and candidates that are read from an array are read as well where the members of any of its
objects are rearranged.  If members are spoiled, their object confirms no bridge, and there is an
error instead of the list in which it is an element. -/
theorem rearranged_account :
    (∀ object, Json.IsValue ('\x7b' :: object) → ∃ members, HasMembers members ('\x7b' :: object)) ∧
      (∀ ip body other members others, IsObject members body → IsObject others other →
        Rearranged ConfigDocument.names members others → confirm? ip body = confirm? ip other) ∧
      (∀ ip body members, IsObject members body → Spoiled ConfigDocument.names members →
        confirm? ip body = none) ∧
      (∀ body other items others, IsArray items body → IsArray others other →
        List.Forall₂ (Exchanged Cloud.Entry.names) items others →
          (Cloud.candidates body).toOption = (Cloud.candidates other).toOption) ∧
      ∀ body items item members, IsArray items body → item ∈ items → HasMembers members item →
        Spoiled Cloud.Entry.names members → ∃ error, Cloud.candidates body = .error error := by
  refine ⟨?_, ?_, ?_, ?_, ?_⟩
  · exact fun object value => value.exists_members
  · intro ip body other members others isObject isObjectToo rearranged
    have same : (ConfigDocument.parse body).toOption = (ConfigDocument.parse other).toOption :=
      ConfigDocument.Label.labelling.decode_rearranged isObject isObjectToo rearranged
    rw [confirm?_eq_bind, confirm?_eq_bind, same]
  · intro ip body members isObject spoiled
    have failed := ConfigDocument.Label.labelling.decode_spoiled isObject spoiled
    rw [confirm?_eq_bind, ConfigDocument.parse]
    cases decoded : Json.decode ConfigDocument.record.read body with
    | error => rfl
    | ok document => exact absurd decoded (failed document)
  · intro body other items others isArray isArrayToo exchanged
    have same := Cloud.Entry.Label.labelling.decode_exchanged isArray isArrayToo exchanged
    rw [Cloud.toOption_candidates, Cloud.toOption_candidates, same]
  · intro body items item members isArray there hasMembers spoiled
    apply Cloud.exists_error
    intro bridges listed
    rcases Cloud.candidates_eq_ok.mp listed with ⟨entries, decoded, -⟩
    exact Cloud.Entry.Label.labelling.decode_list_spoiled isArray there hasMembers spoiled entries
      decoded

/-- A member whose name is half of a surrogate pair is not passed over, although no text has this
name: without it the object confirms a bridge, and with it none. -/
theorem confirm?_of_unnamed : ∃ members,
    IsObject members "\x7b\"name\":\"hue\",\"bridgeid\":\"a\"\x7d" ∧
      IsObject (members ++ [(none, ['1'])])
        "\x7b\"name\":\"hue\",\"bridgeid\":\"a\",\"\\ud800\":1\x7d" ∧
      confirm? "10.0.0.2" "\x7b\"name\":\"hue\",\"bridgeid\":\"a\"\x7d" =
        some ⟨"A", "10.0.0.2", "", "", "hue", ""⟩ ∧
      confirm? "10.0.0.2" "\x7b\"name\":\"hue\",\"bridgeid\":\"a\",\"\\ud800\":1\x7d" = none := by
  have isText (text : String) : Json.IsText text (Json.quote text) := Json.isText_quote text
  have isValue (text : String) : Json.IsValue (Json.quote text) := .string (isText text).isString
  have isNumber : Json.IsValue ['1'] := by
    refine .number ⟨[], by simp, ['1'], [], [], .inr ?_, .inl rfl, .inl rfl, rfl⟩
    decide
  have first : Json.IsKey (some "name") (Json.quote "name") := isText "name"
  have second : Json.IsKey (some "bridgeid") (Json.quote "bridgeid") := isText "bridgeid"
  have blank := Json.isBlank_nil
  refine ⟨[(some "name", Json.quote "hue"), (some "bridgeid", Json.quote "a")],
    ⟨[], _, [], blank, ⟨_, rfl, .member blank blank first blank blank
      (.member blank blank second blank blank (.close blank)), ?_⟩, blank, ?_⟩,
    ⟨[], _, [], blank, ⟨_, rfl, .member blank blank first blank blank
      (.member blank blank second blank blank
        (.member blank blank Json.isKey_half blank blank (.close blank))), ?_⟩, blank, ?_⟩, ?_, ?_⟩
  · simp [isValue]
  · decide +kernel
  · simp [isValue, isNumber]
  · decide +kernel
  · decide +kernel
  · decide +kernel

end BridgeFinder
