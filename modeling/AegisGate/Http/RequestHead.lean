import AegisGate.Http.MessageHead

/-!
# The request parser as a function of the head

`Parse` takes a head from the front of the stream, line by line, and then as much as it declares.
-/

namespace AegisGate.Http

/-! ## Field lines -/

lemma parseField_eq (line : Bytes) (f : Fields) : parseField line f =
      if 58 ∉ line ∨ isToken (rawName line) = false then .error .error
      else if isValidFieldValue (rawValue line) = false then .error .error
      else
        (if fieldName line = ascii "content-length" then f.takeLength (fieldValue line) else .ok f)
          >>= fun f =>
            if fieldName line = ascii "transfer-encoding" ∧ containsChunked (fieldValue line) then
              .error .unsupported
            else .ok (f.store (fieldName line) (fieldValue line)) := by
  rw [parseField]
  cases hfind : find [58] line with
  | none => rw [if_pos (.inl (find_singleton_eq_none.mp hfind))]
  | some colon =>
    obtain ⟨hname, hvalue⟩ := take_drop_of_find hfind
    have hcond := colon_test_iff hfind
    dsimp only
    rw [hname] at hcond
    rw [hname, hvalue]
    simp only [hcond, Bool.not_eq_eq_eq_not, Bool.not_true]
    by_cases hlength : fieldName line = ascii "content-length"
    · rw [if_pos hlength, if_pos (show lowerAscii (rawName line) = _ from hlength)]
      rfl
    · rw [if_neg hlength, if_neg (show lowerAscii (rawName line) ≠ _ from hlength)]
      rfl

/-- The loop of `Parse`. -/
lemma parseFields_eq_lineLoop (bytes : Bytes) (requestLineEnd turns cursor : ℕ) (f : Fields) :
    parseFields bytes requestLineEnd turns cursor f =
      lineLoop parseField (fun _ =>
        if kMaxHeaderBytes + requestLineEnd + 2 < bytes.length then .error
        else .needMoreData) bytes requestLineEnd turns cursor f := by
  induction turns generalizing cursor f with
  | zero => rfl
  | succ turns ih =>
    rw [parseFields, lineLoop]
    refine ite_congr rfl (fun _ => rfl) fun _ => ?_
    cases findFrom crlf cursor bytes with
    | none => exact (apply_ite Except.error _ _ _).symm
    | some lineEnd =>
      refine ite_congr rfl (fun _ => rfl) fun _ => ite_congr rfl (fun _ => rfl) fun _ => ?_
      exact congrArg _ (funext fun g => ih (lineEnd + 2) g)

/-! ## The parser on a head -/

lemma parseBytes_ok {bytes : Bytes} {request : HttpRequest} {length : ℕ}
    (h : parseBytes bytes = .ok (request, length)) :
    ∃ (head : MessageHead) (rest : Bytes) (fields : Fields), bytes = head.bytes ++ rest ∧
      parseRequestLine head.startLine = .ok (request.method, request.target) ∧
      foldLines parseField head.fieldLines {} = .ok fields ∧
      fields.contentLength.getD 0 ≤ rest.length ∧
      request = { request with
        version := ascii "HTTP/1.1", headers := fields.headers
        body := rest.take (fields.contentLength.getD 0) } ∧
      length = head.bytes.length + fields.contentLength.getD 0 := by
  obtain ⟨_, h⟩ := of_ite_error_ok h
  cases hfind : find crlf bytes with
  | none =>
    rw [hfind] at h
    cases (of_ite_error_ok h).2
  | some requestLineEnd =>
    rw [hfind] at h
    obtain ⟨_, h⟩ := of_ite_error_ok h
    obtain ⟨⟨method, target⟩, hmethod, h⟩ := exists_of_bind_ok h
    obtain ⟨⟨fields, cursor⟩, hfields, h⟩ := exists_of_bind_ok h
    obtain ⟨hbody, h⟩ := of_ite_error_ok h
    cases h
    rw [parseFields_eq_lineLoop] at hfields
    obtain ⟨head, rest, hbytes, hstart, hparse, hcursor⟩ :=
      exists_head_of_lineLoop hfind hfields
    have hrest : bytes.drop cursor = rest := by
      rw [hcursor, hbytes, List.drop_left]
    refine ⟨head, rest, fields, hbytes, ?_, hparse, ?_, ?_, ?_⟩
    · rw [hstart]
      exact hmethod
    · rw [← hrest, List.length_drop]
      exact Nat.not_lt.mp hbody
    · rw [hrest]
    · rw [hcursor]

/-- `Parse` on a head within the limits, whatever follows. -/
lemma parseBytes_head (head : MessageHead)
    (hfeed : ∀ line ∈ head.startLine :: head.fieldLines, 10 ∉ line)
    (hstart : head.startLine.length ≤ kMaxRequestLineBytes)
    (hsize : (joinLines head.fieldLines).length + crlf.length ≤ kMaxHeaderBytes) {fields : Fields}
    {method target : Bytes} (hmethod : parseRequestLine head.startLine = .ok (method, target))
    (hfields : foldLines parseField head.fieldLines {} = .ok fields) {rest : Bytes}
    (hbody : fields.contentLength.getD 0 ≤ rest.length) :
    parseBytes (head.bytes ++ rest) = .ok
      ({ method, target, version := ascii "HTTP/1.1", headers := fields.headers
         body := rest.take (fields.contentLength.getD 0) },
        head.bytes.length + fields.contentLength.getD 0) := by
  obtain ⟨hfind, htake⟩ := head.find_crlf_bytes rest
  have hloop : parseFields (head.bytes ++ rest) head.startLine.length
      ((head.bytes ++ rest).length + 1) (head.startLine.length + 2) {} =
      .ok (fields, head.bytes.length) := by
    rw [parseFields_eq_lineLoop, lineLoop_head head hsize, hfields]
    rfl
  obtain ⟨headersEnd, hend, hfeeds⟩ := head.exists_headersEnd hfeed rest
  rw [parseBytes, hend]
  rw [if_neg (Bool.eq_false_iff.mp hfeeds), hfind]
  dsimp only
  rw [if_neg (by omega), htake, hmethod, hloop]
  refine (if_neg ?_).trans ?_
  · rw [List.length_append, Nat.add_sub_cancel_left]
    exact Nat.not_lt.mpr hbody
  · rw [List.drop_left]

end AegisGate.Http
