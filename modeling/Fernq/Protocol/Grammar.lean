import Mathlib.Tactic
import Fernq.Protocol.Slices

/-!
The handshake texts that the server accepts (`parse_validate` of
`fernq-core/src/protocol/validate.rs`).

* `HandshakeText`: the grammar, a text `B#n?Q` with the id behind the last `/` of `B` and the
  password in the parameters `Q`.
* `extractPassword_ok_iff_append`, `extractName_ok_iff_append`, `extractUuid_eq_ok_iff`: one lemma
  for each scan.
* `parse_accepts_iff`: the server accepts the texts of the grammar, and answers all others with an
  error.
-/

namespace Fernq

variable {parseStr : String → Except String Uuid} {url base query name password : String}
  {id : Uuid}

/-- The last segment of a path is the text of an identifier. -/
def EndsInId (parseStr : String → Except String Uuid) (path : String) (id : Uuid) : Prop :=
  ∃ front uuidStr : String, path = front ++ ("/" ++ uuidStr) ∧ '/' ∉ uuidStr.toList ∧
    uuidStr ≠ "" ∧ parseStr uuidStr = .ok id

/-- Of the parameters of a query the first that starts with `room_pass=` gives the password. -/
def GivesPassword (query password : String) : Prop :=
  ∃ before after : List (List Char),
    query.toList.splitOn '&' = before ++ ("room_pass=" ++ password).toList :: after ∧
    ∀ param ∈ before, ¬ "room_pass=".toList <+: param

/-- The text `B#n?Q` of a handshake. -/
structure HandshakeText (parseStr : String → Except String Uuid) (url : String) (id : Uuid)
    (name password base query : String) : Prop where
  text : url = base ++ ("#" ++ (name ++ ("?" ++ query)))
  scheme : "fernq://".toList <+: base.toList
  base_sep : '#' ∉ base.toList ∧ '?' ∉ base.toList
  name_ne : name ≠ ""
  name_sep : '?' ∉ name.toList
  id_last : EndsInId parseStr base id
  password_ne : password ≠ ""
  password_first : GivesPassword query password

/-! ### The scans -/

/-- The look-up of the password in the parameters. -/
lemma findSome_stripPrefix_iff :
    (query.toList.splitOn '&').findSome? (stripPrefix "room_pass=") = some password.toList ↔
      GivesPassword query password := by
  rw [List.findSome?_eq_some_iff, GivesPassword]
  constructor
  · rintro ⟨before, param, after, hquery, hparam, hbefore⟩
    refine ⟨before, after, ?_, fun x hx => stripPrefix_eq_none_iff.mp (hbefore x hx)⟩
    rw [hquery, stripPrefix_eq_some_iff.mp hparam, String.toList_append]
  · rintro ⟨before, after, hquery, hbefore⟩
    refine ⟨before, _, after, hquery, ?_, fun x hx => stripPrefix_eq_none_iff.mpr (hbefore x hx)⟩
    rw [String.toList_append, stripPrefix_append]

lemma extractPassword_ok_iff_append :
    extractPassword url = .ok (base, password) ↔
      ∃ query : String, url = base ++ ("?" ++ query) ∧ '?' ∉ base.toList ∧
        GivesPassword query password ∧ password ≠ "" := by
  rw [extractPassword_eq_ok_iff]
  refine exists_congr fun query => ?_
  rw [splitAtFirst_eq_some_iff, findSome_stripPrefix_iff, ← String.toList_inj, and_assoc]
  simp

lemma extractName_ok_iff_append :
    extractName url = .ok (base, name) ↔
      url = base ++ ("#" ++ name) ∧ '#' ∉ base.toList ∧ name ≠ "" := by
  rw [extractName_eq_ok_iff, splitAtFirst_eq_some_iff, ← String.toList_inj, and_assoc]
  simp

/-- The id is read from the last segment of a path, when it has several. -/
lemma extractUuid_eq_ok_iff (hslash : '/' ∈ base.toList) :
    extractUuid parseStr base = .ok id ↔ EndsInId parseStr base id := by
  obtain ⟨pre, post, hbase, hpost⟩ := exists_last_of_mem hslash
  have hread : extractUuid parseStr base = .ok id ↔
      post ≠ [] ∧ parseStr (.ofList post) = .ok id := by
    rw [extractUuid, hbase, getLast?_splitOn hpost]
    cases post with
    | nil =>
        rw [Option.filter_some, if_neg (by simp), Outcome.okOr_none, Outcome.err_bind]
        simp
    | cons c post =>
        rw [Option.filter_some, if_pos (by simp), Outcome.okOr_some, Outcome.ok_bind]
        cases parseStr (.ofList (c :: post)) <;> simp
  rw [hread, EndsInId]
  constructor
  · rintro ⟨hne, hparse⟩
    refine ⟨.ofList pre, .ofList post, ?_, by simpa using hpost, by simpa using hne, hparse⟩
    rw [← String.toList_inj, hbase]
    simp
  · rintro ⟨front, uuidStr, hpath, hsep, hne, hparse⟩
    -- the text behind the last slash is unique
    have hlast : post = uuidStr.toList := by
      have hcut := congrArg (fun s : String => (s.toList.splitOn '/').getLast?) hpath
      have hright : (front ++ ("/" ++ uuidStr)).toList = front.toList ++ '/' :: uuidStr.toList := by
        simp
      rw [hbase, hright, getLast?_splitOn hpost, getLast?_splitOn hsep] at hcut
      exact Option.some.inj hcut
    rw [hlast, String.ofList_toList]
    exact ⟨by simpa using hne, hparse⟩

/-! ### The grammar -/

/-- A text of the grammar is read part by part. -/
lemma scans_iff_handshakeText :
    (∃ base path, "fernq://".toList <+: url.toList ∧ extractPassword url = .ok (base, password) ∧
        extractName base = .ok (path, name) ∧ extractUuid parseStr path = .ok id) ↔
      ∃ base query, HandshakeText parseStr url id name password base query := by
  have hslash : ∀ path : String, "fernq://".toList <+: path.toList → '/' ∈ path.toList := by
    rintro path h
    exact h.subset (by simp)
  constructor
  · rintro ⟨base, path, hscheme, hpassword, hname, hid⟩
    obtain ⟨query, rfl, hbase, hgives, hpne⟩ := extractPassword_ok_iff_append.mp hpassword
    obtain ⟨rfl, hpath, hnne⟩ := extractName_ok_iff_append.mp hname
    -- the scheme has no separator in it, so that it is before the first one
    have hscheme : "fernq://".toList <+: path.toList := by
      have hcons : (path ++ ("#" ++ name) ++ ("?" ++ query)).toList
          = path.toList ++ '#' :: (name ++ ("?" ++ query)).toList := by simp
      rw [hcons] at hscheme
      exact prefix_of_prefix_append_cons (by simp) hscheme
    have hsep : '?' ∉ path.toList ∧ '?' ∉ name.toList := by simpa using hbase
    exact ⟨path, query, ⟨by simp only [String.append_assoc], hscheme, ⟨hpath, hsep.1⟩, hnne, hsep.2,
      (extractUuid_eq_ok_iff (hslash path hscheme)).mp hid, hpne, hgives⟩⟩
  · rintro ⟨base, query, h⟩
    refine ⟨base ++ ("#" ++ name), base, ?_, ?_, ?_, ?_⟩
    · rw [h.text, String.toList_append]
      exact h.scheme.trans (List.prefix_append ..)
    · rw [extractPassword_ok_iff_append]
      refine ⟨query, ?_, by simpa using ⟨h.base_sep.2, h.name_sep⟩, h.password_first, h.password_ne⟩
      rw [h.text]
      simp only [String.append_assoc]
    · exact extractName_ok_iff_append.mpr ⟨rfl, h.base_sep.1, h.name_ne⟩
    · exact (extractUuid_eq_ok_iff (hslash base h.scheme)).mpr h.id_last

/-- **The grammar of the handshake text.**  The server reads an id, a name and a password out of a
payload exactly when it is the UTF-8 text `B#n?Q` that the grammar has for them.  Every other
payload it answers with an error; no scan aborts. -/
theorem parse_accepts_iff (parseStr : String → Except String Uuid) (payload : List UInt8) :
    (∀ id name password, Sliced.parseValidate parseStr payload = .ok (id, name, password) ↔
      ∃ url base query, payload = utf8Bytes url ∧
        HandshakeText parseStr url id name password base query) ∧
    ((¬ ∃ url id name password base query, payload = utf8Bytes url ∧
        HandshakeText parseStr url id name password base query) →
      ∃ e, Sliced.parseValidate parseStr payload = .err e) := by
  have haccept : ∀ id name password,
      Sliced.parseValidate parseStr payload = .ok (id, name, password) ↔
        ∃ url base query, payload = utf8Bytes url ∧
          HandshakeText parseStr url id name password base query := by
    intro id name password
    rw [Sliced.parseValidate_eq, parseValidate_eq_ok_iff]
    constructor
    · rintro ⟨url, base, path, hutf8, hscans⟩
      obtain ⟨base, query, htext⟩ := scans_iff_handshakeText.mp ⟨base, path, hscans⟩
      exact ⟨url, base, query, (fromUtf8_eq_some_iff.mp hutf8).symm, htext⟩
    · rintro ⟨url, base, query, rfl, htext⟩
      obtain ⟨base, path, hscans⟩ := scans_iff_handshakeText.mpr ⟨base, query, htext⟩
      exact ⟨url, base, path, fromUtf8_utf8Bytes url, hscans⟩
  refine ⟨haccept, fun hnone => ?_⟩
  cases hread : Sliced.parseValidate parseStr payload with
  | ok result =>
      obtain ⟨id, name, password⟩ := result
      obtain ⟨url, base, query, htext⟩ := (haccept id name password).mp hread
      exact absurd ⟨url, id, name, password, base, query, htext⟩ hnone
  | err e => exact ⟨e, rfl⟩
  | panicked =>
      rw [Sliced.parseValidate_eq] at hread
      exact absurd hread (parseValidate_ne_panicked parseStr payload)

end Fernq
