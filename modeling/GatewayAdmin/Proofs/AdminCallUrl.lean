import GatewayAdmin.Arguments
import GatewayAdmin.Proofs.CanonicalQuery
import GatewayAdmin.Proofs.UriReading

/-! The URL of an admin call, read as a URI: the path is the one of the base with the resource
behind it, and the query has one field for each argument that was given and no others. -/
namespace GatewayAdmin.AdminUrl

open Text

/-- The characters of a resource: unreserved ones and slashes. -/
def isResourceChar (c : Char) : Bool := c = '/' || Percent.isUnreservedChar c

/-- A resource, with a query of its own where it stands for a part of another. -/
def resource (path : String) (sub : Option String) : String :=
  path ++ sub.elim "" ("?" ++ ·)

/-- The fields of the query of a call, as they are written. -/
def queryFields (sub : Option String) (args : Arguments) : List (List Char) :=
  sub.toList.map String.toList ++ args.present.map Arguments.pairChars

/-- The octets that the fields of the query of a call stand for. -/
def queryPairs (sub : Option String) (args : Arguments) : List Canonical.Pair :=
  sub.toList.map (fun s => (utf8 s, [])) ++ args.present.map fun a => (utf8 a.1, utf8 a.2)

/-- The query that holds these fields; without a field there is none. -/
def joinFields? (fields : List (List Char)) : Option (List Char) :=
  if fields = [] then none else some (['&'].intercalate fields)

/-- A field has no character that ends it or the query. -/
def isFieldChar (c : Char) : Bool := c = '=' || c = '/' || Percent.isCodeChar c

theorem isFieldChar_lt (c : Char) (h : isFieldChar c = true) : c.toNat < 128 := by
  simp only [isFieldChar, Bool.or_eq_true, decide_eq_true_eq] at h
  rcases h with (rfl | rfl) | h
  · decide
  · decide
  · exact Percent.isCodeChar_lt c h

theorem isQueryChar_of_isFieldChar {c : Char} (h : isFieldChar c = true) :
    Uri.isQueryChar c = true := isClass_of_ascii isFieldChar_lt (by decide +kernel) h

theorem isFieldChar_of_isResourceChar {c : Char} (h : isResourceChar c = true) :
    isFieldChar c = true := by
  simp only [isResourceChar, Bool.or_eq_true, decide_eq_true_eq] at h
  rcases h with rfl | h
  · decide
  · simp [isFieldChar, Percent.isCodeChar, h]

theorem isResourceChar_lt (c : Char) (h : isResourceChar c = true) : c.toNat < 128 :=
  isFieldChar_lt c (isFieldChar_of_isResourceChar h)

theorem isPathChar_of_isResourceChar {c : Char} (h : isResourceChar c = true) :
    Uri.isPathChar c = true := isClass_of_ascii isResourceChar_lt (by decide +kernel) h

theorem isFieldChar_of_mem_pairChars {a : String × String} {c : Char}
    (h : c ∈ Arguments.pairChars a) : isFieldChar c = true := by
  have hcode : Percent.isCodeChar c = true → isFieldChar c = true := by
    intro hc
    rw [isFieldChar, hc, Bool.or_true]
  rcases List.mem_append.mp h with h | h
  · exact hcode (Percent.isCodeChar_of_mem_encode h)
  · rcases List.mem_cons.mp h with rfl | h
    · decide
    · exact hcode (Percent.isCodeChar_of_mem_encode h)

theorem isFieldChar_of_mem_queryFields {sub : Option String} {args : Arguments}
    (hsub : ∀ s ∈ sub, ∀ c ∈ s.toList, isResourceChar c = true) :
    ∀ field ∈ queryFields sub args, ∀ c ∈ field, isFieldChar c = true := by
  intro field hf c hc
  rcases List.mem_append.mp hf with hf | hf
  · obtain ⟨s, hs, rfl⟩ := List.mem_map.mp hf
    exact isFieldChar_of_isResourceChar (hsub s (Option.mem_toList.mp hs) c hc)
  · obtain ⟨a, _, rfl⟩ := List.mem_map.mp hf
    exact isFieldChar_of_mem_pairChars hc

theorem ne_nil_of_mem_queryFields {sub : Option String} {args : Arguments}
    (hsub : ∀ s ∈ sub, s ≠ "") : ∀ field ∈ queryFields sub args, field ≠ [] := by
  intro field hf
  rcases List.mem_append.mp hf with hf | hf
  · obtain ⟨s, hs, rfl⟩ := List.mem_map.mp hf
    simpa using hsub s (Option.mem_toList.mp hs)
  · obtain ⟨a, _, rfl⟩ := List.mem_map.mp hf
    simp [Arguments.pairChars]

theorem toList_encode (args : Arguments) :
    args.encode.toList = ['&'].intercalate (args.present.map Arguments.pairChars) := by
  simp [Arguments.encode]

theorem encode_eq_empty_iff (args : Arguments) : args.encode = "" ↔ args.present = [] := by
  rw [← String.toList_eq_nil_iff, toList_encode]
  cases args.present with
  | nil => simp
  | cons a rest => cases rest <;> simp [List.intercalate_cons_cons, Arguments.pairChars]

/-- Whichever way the separators are chosen, the fields come one after the other behind one
question mark. -/
theorem toList_ofParts (base p : String) (sub : Option String) (args : Arguments)
    (hp : '?' ∉ p.toList) :
    (ofParts base (resource p sub) args.encode).toList =
      base.toList ++ (root.toList ++ p.toList ++
        (joinFields? (queryFields sub args)).elim [] ('?' :: ·)) := by
  cases hargs : args.present with
  | nil =>
    have he : args.encode = "" := (encode_eq_empty_iff args).mpr hargs
    cases sub <;> simp [ofParts, separator, he, queryFields, hargs, joinFields?, resource]
  | cons a rest =>
    have he : args.encode ≠ "" := by simp [encode_eq_empty_iff, hargs]
    cases sub with
    | none =>
      simp [ofParts, separator, he, hp, toList_encode, queryFields, hargs, joinFields?, resource]
    | some s =>
      simp [ofParts, separator, he, toList_encode, queryFields, hargs, joinFields?, resource,
        List.intercalate_cons_cons]

/-- Of the base only the tail grows. -/
theorem isAbsolute_ofParts {base p : String} (sub : Option String) (args : Arguments)
    {name tail : List Char} {authority : Authority}
    (hbase : Uri.IsAbsolute base.toList name authority tail) (hp : '?' ∉ p.toList) :
    Uri.IsAbsolute (ofParts base (resource p sub) args.encode).toList name authority
      (tail ++ (root.toList ++ p.toList) ++
        (joinFields? (queryFields sub args)).elim [] ('?' :: ·)) := by
  rw [toList_ofParts base p sub args hp, List.append_assoc tail]
  apply hbase.append
  rw [show root.toList = '/' :: "admin".toList from rfl]
  simp [Uri.isAuthorityEnd]

/-- A base without query and fragment has nothing but a path behind its authority. -/
theorem isPathChar_of_mem_tail {base : String} {name tail : List Char} {authority : Authority}
    {read : String × Option String} (hbase : Uri.IsAbsolute base.toList name authority tail)
    (hread : Uri.readPathQuery? tail = some read)
    (hmarks : '?' ∉ base.toList ∧ '#' ∉ base.toList) : ∀ c ∈ tail, Uri.isPathChar c = true := by
  apply Uri.isPathChar_of_readPathQuery? hread
  intro c hc
  have hb : c ∈ base.toList := by simp [hbase.text_eq, hc]
  simp [Uri.isPathEnd, ne_of_mem_of_not_mem hb hmarks.1, ne_of_mem_of_not_mem hb hmarks.2]

theorem pairOfField_resource {s : String} (hs : ∀ c ∈ s.toList, isResourceChar c = true) :
    Canonical.pairOfField s.toList = (utf8 s, []) := by
  have hequals : '=' ∉ s.toList := not_mem_of_class hs (by decide)
  have hpercent : '%' ∉ s.toList := not_mem_of_class hs (by decide)
  rw [Canonical.pairOfField, splitFirst_of_not_mem hequals]
  simp [Percent.decode_of_not_mem hpercent, utf8, Percent.decode]

theorem map_pairOfField_queryFields {sub : Option String} {args : Arguments}
    (hsub : ∀ s ∈ sub, ∀ c ∈ s.toList, isResourceChar c = true) :
    (queryFields sub args).map Canonical.pairOfField = queryPairs sub args := by
  have hpair : ∀ a : String × String,
      Canonical.pairOfField (Arguments.pairChars a) = (utf8 a.1, utf8 a.2) :=
    fun a => Canonical.pairOfField_pairChars (utf8 a.1, utf8 a.2)
  rw [queryFields, queryPairs, List.map_append, List.map_map, List.map_map]
  congr 1
  · apply List.map_congr_left
    intro s hs
    exact pairOfField_resource (hsub s (Option.mem_toList.mp hs))
  · exact List.map_congr_left fun a _ => hpair a

theorem not_mem_of_isFieldChar {fields : List (List Char)} {m : Char}
    (hchars : ∀ field ∈ fields, ∀ c ∈ field, isFieldChar c = true) (hm : isFieldChar m = false) :
    ∀ field ∈ fields, m ∉ field := fun field hf => not_mem_of_class (hchars field hf) hm

/-- The canonical form of a joined query has the pairs of its fields in order. -/
theorem toList_query_intercalate {fields : List (List Char)} (hne : ∀ field ∈ fields, field ≠ [])
    (hchars : ∀ field ∈ fields, ∀ c ∈ field, isFieldChar c = true) :
    (Canonical.query (String.ofList (['&'].intercalate fields))).toList =
      ['&'].intercalate ((Canonical.sortPairs (fields.map Canonical.pairOfField)).map
        Canonical.pairChars) := by
  have hmark : '?' ∉ ['&'].intercalate fields := by
    intro hm
    rcases mem_of_mem_intercalate hm with h | ⟨field, hf, h⟩
    · simp at h
    · exact not_mem_of_isFieldChar hchars (by decide) field hf h
  have hpairs : Canonical.pairs (String.ofList (['&'].intercalate fields)) =
      fields.map Canonical.pairOfField := by
    rw [Canonical.pairs, String.toList_ofList, Canonical.dropQuestionMark_of_not_mem hmark]
    exact Canonical.pairsOf_intercalate hne (not_mem_of_isFieldChar hchars (by decide))
  rw [Canonical.query, hpairs, String.toList_ofList]

theorem isQueryChar_of_mem_intercalate {fields : List (List Char)}
    (hchars : ∀ field ∈ fields, ∀ c ∈ field, isFieldChar c = true) :
    ∀ c ∈ ['&'].intercalate fields, Uri.isQueryChar c = true := by
  intro c hc
  rcases mem_of_mem_intercalate hc with h | ⟨field, hf, h⟩
  · rw [List.mem_singleton.mp h]
    decide
  · exact isQueryChar_of_isFieldChar (hchars field hf c h)

theorem readPathQuery?_joinFields {path : List Char} {fields : List (List Char)}
    (hp : ∀ c ∈ path, Uri.isPathChar c = true)
    (hchars : ∀ field ∈ fields, ∀ c ∈ field, isFieldChar c = true) :
    Uri.readPathQuery? (path ++ (joinFields? fields).elim [] ('?' :: ·)) =
      some (String.ofList path, (joinFields? fields).map String.ofList) := by
  unfold joinFields?
  split_ifs with h
  · simpa using Uri.readPathQuery?_path hp
  · exact Uri.readPathQuery?_path_query hp (isQueryChar_of_mem_intercalate hchars)

/-- The fields of the query of a URI, each cut at its first `=` and read. -/
def readFields (query : Option String) : List Canonical.Pair :=
  query.elim [] fun q => (q.toList.splitOn '&').map Canonical.pairOfField

theorem readFields_joinFields {fields : List (List Char)}
    (hchars : ∀ field ∈ fields, ∀ c ∈ field, isFieldChar c = true) :
    readFields ((joinFields? fields).map String.ofList) = fields.map Canonical.pairOfField := by
  unfold joinFields?
  split_ifs with h
  · simp [readFields, h]
  · simp only [readFields, Option.map_some, Option.elim_some, String.toList_ofList]
    rw [List.splitOn_intercalate _ (not_mem_of_isFieldChar hchars (by decide)) h]

theorem getD_joinFields (fields : List (List Char)) :
    ((joinFields? fields).map String.ofList).getD "" =
      String.ofList (['&'].intercalate fields) := by
  unfold joinFields?
  split_ifs with h
  · simp [h]
  · rfl

theorem map_pairChars_queryPairs (sub : Option String) (args : Arguments) :
    (queryPairs sub args).map Canonical.pairChars =
      sub.toList.map (fun s => (Percent.encodeText s).toList ++ ['=']) ++
        args.present.map Arguments.pairChars := by
  have hsub : ∀ s : String,
      Canonical.pairChars (utf8 s, []) = (Percent.encodeText s).toList ++ ['='] := by
    intro s
    simp [Canonical.pairChars, Percent.encodeText, Percent.encode]
  rw [queryPairs, List.map_append, List.map_map, List.map_map]
  simp only [Function.comp_def, hsub]
  rfl

/-- On every absolute base without query and fragment, and for every resource and all arguments,
the URL of a call that is short enough is a URI. It has the authority of the base, the path of the
base with the resource behind it, and a query whose fields are the query of the resource itself and
then the arguments that are given, in their order and whatever characters they hold. The query that
is signed has the same fields, encoded and in another order. -/
theorem callUrl_reads_back {base p path : String} {sub query : Option String} {scheme : Scheme}
    {authority : Authority} (args : Arguments)
    (hbase : Uri.parse? base = some (.absoluteForm scheme authority path query))
    (hmarks : '?' ∉ base.toList ∧ '#' ∉ base.toList)
    (hp : ∀ c ∈ p.toList, isResourceChar c = true)
    (hsub : ∀ s ∈ sub, s ≠ "" ∧ ∀ c ∈ s.toList, isResourceChar c = true)
    (hlen : (ofParts base (resource p sub) args.encode).utf8ByteSize ≤ Uri.maxBytes) :
    ∃ q, Uri.parse? (ofParts base (resource p sub) args.encode) =
        some (.absoluteForm scheme authority (Uri.afterAuthority base ++ root ++ p) q) ∧
      readFields q = queryPairs sub args ∧
      ∃ fields : List (List Char), fields.Perm
          (sub.toList.map (fun s => (Percent.encodeText s).toList ++ ['=']) ++
            args.present.map Arguments.pairChars) ∧
        (Canonical.query (q.getD "")).toList = ['&'].intercalate fields := by
  obtain ⟨-, name, tail, rest, habs, rfl, hread, -⟩ := Uri.parse?_eq_absoluteForm_iff.mp hbase
  have hchars : ∀ field ∈ queryFields sub args, ∀ c ∈ field, isFieldChar c = true :=
    isFieldChar_of_mem_queryFields fun s hs => (hsub s hs).2
  have hne : ∀ field ∈ queryFields sub args, field ≠ [] :=
    ne_nil_of_mem_queryFields fun s hs => (hsub s hs).1
  have hno : '?' ∉ p.toList := not_mem_of_class hp (by decide)
  have htail := isPathChar_of_mem_tail habs hread hmarks
  have hpath : ∀ c ∈ tail ++ (root.toList ++ p.toList), Uri.isPathChar c = true := by
    have hroot : ∀ c ∈ root.toList, Uri.isPathChar c = true := List.all_eq_true.mp (by decide)
    simp only [List.forall_mem_append]
    exact ⟨htail, hroot, fun c hc => isPathChar_of_isResourceChar (hp c hc)⟩
  have habs' := isAbsolute_ofParts sub args habs hno
  have hcall : String.ofList (tail ++ (root.toList ++ p.toList)) =
      Uri.afterAuthority base ++ root ++ p := by
    rw [← String.toList_inj, habs.afterAuthority_eq]
    simp
  have hroot : Uri.afterAuthority base ++ root ++ p ≠ "" := by
    simp [← String.toList_eq_nil_iff, root]
  refine ⟨(joinFields? (queryFields sub args)).map String.ofList, ?_, ?_, ?_⟩
  · rw [habs'.parse?_eq rfl hlen, readPathQuery?_joinFields hpath hchars, hcall]
    simp [hroot]
  · rw [readFields_joinFields hchars]
    exact map_pairOfField_queryFields fun s hs => (hsub s hs).2
  · refine ⟨(Canonical.sortPairs (queryPairs sub args)).map Canonical.pairChars, ?_, ?_⟩
    · rw [← map_pairChars_queryPairs]
      exact (Canonical.sortPairs_perm _).map _
    · rw [getD_joinFields, toList_query_intercalate hne hchars,
        map_pairOfField_queryFields fun s hs => (hsub s hs).2]

/-- A value with every separator of a URL in it, a value that is absent and a name that is empty. -/
theorem callUrl_reads_back_reserved :
    let args : Arguments := ⟨[("uid", some "a&b=c#d?%41+ é"), ("email", none), ("", some "/")]⟩
    ∃ q, Uri.parse? (ofParts "HTTP://u@h:8080/s3" (resource "/user" (some "quota")) args.encode) =
        some (.absoluteForm .http ⟨"u@h:8080", by decide⟩ "/s3/admin/user" q) ∧
      readFields q = [(utf8 "quota", []), (utf8 "uid", utf8 "a&b=c#d?%41+ é"), ([], utf8 "/")] ∧
      ∃ fields : List (List Char), fields.Perm ["quota=".toList,
          "uid=a%26b%3Dc%23d%3F%2541%2B%20%C3%A9".toList, "=%2F".toList] ∧
        (Canonical.query (q.getD "")).toList = ['&'].intercalate fields := by
  intro args
  have hbase : Uri.parse? "HTTP://u@h:8080/s3" =
      some (.absoluteForm .http ⟨"u@h:8080", by decide⟩ "/s3" none) := by decide
  have hp : ∀ c ∈ "/user".toList, isResourceChar c = true := List.all_eq_true.mp (by decide)
  have hsub : ∀ s ∈ some "quota", s ≠ "" ∧ ∀ c ∈ s.toList, isResourceChar c = true := by
    rintro s ⟨⟩
    exact ⟨by decide, List.all_eq_true.mp (by decide)⟩
  exact callUrl_reads_back args hbase (by decide) hp hsub (by decide)

end GatewayAdmin.AdminUrl
