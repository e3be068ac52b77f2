import RecordStore.Envelope
import RecordStore.Proofs.Store.Answers
import RecordStore.Proofs.Store.Registry
import RecordStore.Proofs.Wire.RoundTrip

/-!
# Messages that are written are read back

The text of a message is read to the tree that was written, whatever the message holds, and the tree
is read to the message part by part. So a message is read back exactly if its decimals are: a
decimal that is not finite is written as nothing, and some of those that are finite are read from
their digits as their neighbours.

- `read?_write_eq`: the text of a message is read to its tree;
- `CountsFit`: the counts in a message fit 64 bits; `decimals`: the decimals in it;
- `read?_write_iff`: a message is read back exactly if its decimals are;
  `read?_write_eq_none`: one with a decimal that is not finite is read as none;
- `read?_write`: every message without decimals is read back;
- `Store.handle_request`, `Store.handle_requestParsed`: a store answers with the outcome of a run;
- `read?_write_handle`: which answers of a store are read back.
-/

namespace RecordStore

namespace Envelope

/-! ## Trees -/

theorem isSpelled_payloadToJson (e : Envelope) : e.payloadToJson.IsSpelled := by
  cases e with
  | query payload =>
    cases payload with
    | raw text => exact .string text
    | parsed queries => simp [payloadToJson, queriesToJson]
  | success entries => simp [payloadToJson, EntrySet.toJson]
  | error e => exact e.isSpelled_toJson

/-- The text of a message is read to its tree. -/
theorem read?_write_eq (e : Envelope) : read? e.write = ofJson? e.toJson := by
  have hspelled : e.toJson.IsSpelled := by
    simp [toJson, isSpelled_payloadToJson]
  rw [read?, write, Json.parse?_compact hspelled, Option.bind_some]

/-- The type stands before the payload, so that the payload need not be kept. -/
theorem ofJson?_toJson_eq (e : Envelope) :
    ofJson? e.toJson = ofPayload? false e.tag e.payloadToJson := rfl

/-- The payload of a request is a text or a batch, and can be told apart. -/
theorem payloadOfJson?_queriesToJson (queries : QuerySet) :
    payloadOfJson? (queriesToJson queries) = some (.parsed queries) := by
  have hreadable : (queriesToJson queries).readable payloadDepth = true := by
    refine Json.readable_array_iff.2 ?_
    exact List.forall_mem_map.2 fun q _ => q.readable_toJson 119
  have hqueries : (queriesToJson queries).list? Query.ofJson? = some queries :=
    mapM_map_eq_some_iff.2 fun q _ => q.ofJson?_toJson
  unfold payloadOfJson?
  rw [if_pos hreadable]
  exact congrArg (Option.map QueryPayload.parsed) hqueries

/-! ## Messages -/

/-- The counts in a message fit 64 bits. -/
def CountsFit : Envelope → Prop
  | error e => e.CountsFit
  | _ => True

/-- The decimals in a message. Only entries have any. -/
def decimals : Envelope → List Float
  | success entries => entries.flatMap Entry.decimals
  | _ => []

/-- A message is read back exactly if its decimals are. -/
theorem read?_write_iff {e : Envelope} (h : e.CountsFit) :
    read? e.write = some e ↔ ∀ x ∈ e.decimals, Json.KeepsFloat x := by
  rw [read?_write_eq, ofJson?_toJson_eq]
  cases e with
  | query payload =>
    cases payload with
    | raw text => exact ⟨fun _ => nofun, fun _ => rfl⟩
    | parsed queries =>
      show (payloadOfJson? (queriesToJson queries)).map query = _ ↔ _
      rw [payloadOfJson?_queriesToJson]
      exact ⟨fun _ => nofun, fun _ => rfl⟩
  | success entries =>
    have hentries : EntrySet.ofJson? entries.toJson = some entries ↔
        ∀ x ∈ (success entries).decimals, Json.KeepsFloat x := by
      refine mapM_map_eq_some_iff.trans ?_
      simp only [Entry.ofJson?_toJson_iff, decimals, List.mem_flatMap]
      constructor
      · rintro h x ⟨e, he, hx⟩
        exact h e he x hx
      · intro h e he x hx
        exact h x ⟨e, he, hx⟩
    rw [← hentries]
    show (EntrySet.ofJson? entries.toJson).map success = _ ↔ _
    cases EntrySet.ofJson? entries.toJson <;> simp
  | error e =>
    show (QueryError.ofJson? false e.toJson).map error = _ ↔ _
    rw [QueryError.ofJson?_toJson false h]
    exact ⟨fun _ => nofun, fun _ => rfl⟩

/-- A message with a decimal that is not finite is read as none. -/
theorem read?_write_eq_none {e : Envelope} {x : Float} (hx : x ∈ e.decimals)
    (hfinite : x.isFinite = false) : read? e.write = none := by
  rw [read?_write_eq, ofJson?_toJson_eq]
  cases e with
  | success entries =>
    obtain ⟨e, he, hx⟩ := List.mem_flatMap.1 hx
    have hnone : EntrySet.ofJson? entries.toJson = none :=
      mapM_map_eq_none he (Entry.ofJson?_toJson_eq_none hx hfinite)
    show (EntrySet.ofJson? entries.toJson).map success = none
    rw [hnone, Option.map_none]
  | _ => cases hx

/-- Every message without decimals is read back: requests with any text or any queries, entries of
integers and strings, and all errors. -/
theorem read?_write {e : Envelope} (hcounts : e.CountsFit) (hdecimals : e.decimals = []) :
    read? e.write = some e := by
  rw [read?_write_iff hcounts, hdecimals]
  exact List.forall_mem_nil _

/-- The greatest count in an error, and the least integer beside a string of characters that are
escaped. -/
theorem read?_write_extremes :
    let e : Envelope := .error (.corruptTable "a \"b\"" 18446744073709551615 "\x00\x1f\n")
    let f : Envelope := .success [{
      id := "\\"
      data := [("v", .int (-9223372036854775808)), ("é", .str "😀\t")]
      queryTime := some 18446744073709551615 }]
    (e.CountsFit ∧ e.decimals = [] ∧ read? e.write = some e) ∧
      f.CountsFit ∧ f.decimals = [] ∧ read? f.write = some f := by
  intro e f
  have hcount : e.CountsFit := by
    show 18446744073709551615 < UInt64.size
    decide
  exact ⟨⟨hcount, rfl, read?_write hcount rfl⟩, trivial, rfl, read?_write trivial rfl⟩

end Envelope

/-! ## Answers -/

/-- A response reports the result that it was made of. -/
theorem Envelope.toResult_ofResult (result : Except QueryError EntrySet) :
    (ofResult result).toResult = result := by
  cases result <;> rfl

theorem Envelope.ofResult_eq_success_iff {result : Except QueryError EntrySet}
    {entries : EntrySet} : ofResult result = .success entries ↔ result = .ok entries := by
  cases result <;> simp [ofResult]

namespace Store

variable (circumstances : Nat → Circumstances) (s : Store)

/-- A text is answered with the outcome of its run. -/
theorem handle_request (text : String) :
    (handle circumstances (.request text) s).1 =
      .ofResult (outcome (execute circumstances text s)) := by
  unfold handle Envelope.request
  dsimp only
  cases execute circumstances text s <;> rfl

/-- A batch is answered with the outcome of its run. -/
theorem handle_requestParsed (queries : QuerySet) :
    (handle circumstances (.requestParsed queries) s).1 =
      .ofResult (outcome (query circumstances queries s)) := by
  unfold handle Envelope.requestParsed
  dsimp only
  cases query circumstances queries s <;> rfl

/-- The entries that a store answers fit the schemas of its tables. -/
theorem handle_fits {circumstances : Nat → Circumstances} {r : Envelope} {s : Store}
    {entries : EntrySet} (h : (handle circumstances r s).1 = .success entries) :
    ∀ e ∈ entries, ∃ schema ∈ s.schemas, e.Fits schema := by
  cases r with
  | query payload =>
    cases payload with
    | raw text =>
      have houtcome := (handle_request circumstances s text).symm.trans h
      obtain ⟨s', hrun⟩ := outcome_eq_ok_iff.1 (Envelope.ofResult_eq_success_iff.1 houtcome)
      exact execute_fits hrun
    | parsed queries =>
      have houtcome := (handle_requestParsed circumstances s queries).symm.trans h
      obtain ⟨s', hrun⟩ := outcome_eq_ok_iff.1 (Envelope.ofResult_eq_success_iff.1 houtcome)
      exact query_fits hrun
  | success entries => cases h
  | error e => cases h

end Store

/-- An entry of a table without decimal columns has no decimals. -/
theorem Entry.Fits.decimals_eq_nil {schema : Schema} {e : Entry} (h : e.Fits schema)
    (hcolumns : ∀ column ∈ schema.columns, column.type ≠ .decimal) : e.decimals = [] := by
  refine List.filterMap_eq_nil_iff.2 fun cell hcell => ?_
  have hcolumn : Column.mk cell.1 cell.2.storageType ∈ schema.columns := by
    rw [← h]
    exact List.mem_map_of_mem hcell
  have htype := hcolumns _ hcolumn
  obtain ⟨column, v⟩ := cell
  cases v with
  | dec x => exact absurd rfl htype
  | _ => rfl

/-- A store whose tables have no decimal columns answers no decimals. -/
theorem Store.decimals_handle_eq_nil {circumstances : Nat → Circumstances} {r : Envelope}
    {s : Store}
    (hcolumns : ∀ t ∈ s.database.tables, ∀ column ∈ t.schema.columns, column.type ≠ .decimal) :
    (handle circumstances r s).1.decimals = [] := by
  cases ha : (handle circumstances r s).1 with
  | success entries =>
    refine List.flatMap_eq_nil_iff.2 fun e he => ?_
    obtain ⟨schema, hschema, hfits⟩ := handle_fits ha e he
    obtain ⟨t, ht, rfl⟩ := List.mem_map.1 hschema
    exact hfits.decimals_eq_nil (hcolumns t ht)
  | _ => rfl

/-- An answer is read back by the peer exactly if every decimal in it is, finite and read from its
digits; if one is not finite, no message is read. So all errors are read back, and every answer of a
store whose tables have no decimal columns, whatever stands in their files. What an answer reports
is the outcome of the run that was asked for. -/
theorem read?_write_handle (circumstances : Nat → Circumstances) (r : Envelope) (s : Store) :
    let a := (Store.handle circumstances r s).1
    a.CountsFit →
      (Envelope.read? a.write = some a ↔ ∀ x ∈ a.decimals, Json.KeepsFloat x) ∧
      ((∃ x ∈ a.decimals, x.isFinite = false) → Envelope.read? a.write = none) ∧
      (∀ e, a = .error e → Envelope.read? a.write = some a) ∧
      ((∀ t ∈ s.database.tables, ∀ column ∈ t.schema.columns, column.type ≠ .decimal) →
        Envelope.read? a.write = some a) ∧
      (∀ text, r = .request text → a.toResult = outcome (Store.execute circumstances text s)) ∧
      ∀ queries, r = .requestParsed queries →
        a.toResult = outcome (Store.query circumstances queries s) := by
  intro a hcounts
  have hback : a.decimals = [] → Envelope.read? a.write = some a := by
    intro hdecimals
    rw [Envelope.read?_write_iff hcounts, hdecimals]
    exact List.forall_mem_nil _
  refine ⟨Envelope.read?_write_iff hcounts, ?_, ?_, ?_, ?_, ?_⟩
  · rintro ⟨x, hx, hfinite⟩
    exact Envelope.read?_write_eq_none hx hfinite
  · intro e he
    refine hback ?_
    rw [he]
    rfl
  · intro hcolumns
    exact hback (Store.decimals_handle_eq_nil hcolumns)
  · rintro text rfl
    show (Store.handle circumstances (.request text) s).1.toResult = _
    rw [Store.handle_request, Envelope.toResult_ofResult]
  · rintro queries rfl
    show (Store.handle circumstances (.requestParsed queries) s).1.toResult = _
    rw [Store.handle_requestParsed, Envelope.toResult_ofResult]

/-- A decimal from a file that is read from its digits. -/
theorem read?_write_handle_half :
    let s : Store := ⟨{
      config := { dataDir := "" }
      tables := [{ name := "T", schema := ⟨[⟨"v", .decimal⟩]⟩, path := "T.tbl" }] },
      ⟨[(["T.tbl"], .file "[T,1:v]\x7ba;D:2.5\x7d".toUTF8)], []⟩⟩
    let a := (Store.handle (fun _ => ⟨"", 0⟩) (.request "GET IN T") s).1
    a = .success [{ id := "a", data := [("v", .dec 2.5)], queryTime := some 0 }] ∧ a.CountsFit ∧
      (∀ x ∈ a.decimals, Json.KeepsFloat x) ∧ Envelope.read? a.write = some a := by
  intro s a
  have ha : a = .success [{ id := "a", data := [("v", .dec 2.5)], queryTime := some 0 }] := by
    decide +kernel
  have hcounts : a.CountsFit := by
    rw [ha]
    trivial
  have hkept : ∀ x ∈ a.decimals, Json.KeepsFloat x := by
    rw [ha]
    decide +kernel
  exact ⟨ha, hcounts, hkept, (read?_write_handle _ _ s hcounts).1.2 hkept⟩

/-- A file may hold decimals that the peer cannot read: an infinite one, which is no JSON number,
and a finite one that is read as its neighbour. -/
theorem read?_write_handle_ne :
    let files : FileTree := ⟨[(["T.tbl"],
      .file "[T,1:v]\x7ba;D:inf\x7d\x7bb;D:3795403935537.8325\x7d".toUTF8)], []⟩
    ∃ t, Store.loaded? files "T.tbl" = some t ∧
      let s : Store := ⟨{ config := { dataDir := "" }, tables := [t] }, files⟩
      let a := (Store.handle (fun _ => ⟨"", 0⟩) (.request "GET ENTRY a IN T") s).1
      let b := (Store.handle (fun _ => ⟨"", 0⟩) (.request "GET ENTRY b IN T") s).1
      a = .success [{ id := "a", data := [("v", .dec Numeral.infinity)], queryTime := some 0 }] ∧
        Envelope.read? a.write = none ∧
        b = .success
          [{ id := "b", data := [("v", .dec 3795403935537.8325)], queryTime := some 0 }] ∧
        ∃ b', Envelope.read? b.write = some b' ∧ b'.alike b = false := by
  intro files
  refine ⟨{ name := "T", schema := ⟨[⟨"v", .decimal⟩]⟩, path := "T.tbl" }, by decide +kernel, ?_⟩
  refine ⟨by decide +kernel, by decide +kernel, by decide +kernel, ?_⟩
  -- the neighbour that the second answer is read as
  refine ⟨.success
    [{ id := "b", data := [("v", .dec 3795403935537.833)], queryTime := some 0 }], ?_⟩
  decide +kernel

end RecordStore
