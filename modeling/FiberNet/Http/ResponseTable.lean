import FiberNet.Http.Grammar

/-! # The automaton of the response parser

The transitions of `httpclient_parser_execute`, state by state. One automaton
reads both a response header and a chunk-size line.
-/

namespace FiberNet

namespace Http

inductive ResponseAction
  | mark | startField | writeField | startValue | writeValue | writeContentLen
  | connectionClose | reasonPhrase | statusCode | httpVersion | chunkSize | transChunked
  | done
  deriving DecidableEq

def responseRows0 : List (Nat × List (Edge ResponseAction)) := [
  (1, [on (byte 72) [.mark] 8, on xdigit [.mark] 2]),
  (2, [on (byte 10) [.chunkSize, .done] 120, on (byte 13) [.chunkSize] 3,
    on (byte 59) [.chunkSize] 4, on xdigit [] 2]),
  (3, [on (byte 10) [.done] 120]),
  (4, [on token [.startField] 5]),
  (5, [on (byte 10) [.writeField, .startValue, .writeValue, .done] 120,
    on (byte 13) [.writeField, .startValue, .writeValue] 3,
    on (byte 59) [.writeField, .startValue, .writeValue] 4,
    on (byte 61) [.writeField, .startValue] 6, on token [] 5]),
  (6, [on token [.startValue] 7]),
  (7, [on (byte 10) [.writeValue, .done] 120, on (byte 13) [.writeValue] 3,
    on (byte 59) [.writeValue] 4, on token [] 7]),
  (8, [on (byte 84) [] 9]),
  (9, [on (byte 84) [] 10]),
  (10, [on (byte 80) [] 11]),
  (11, [on (byte 47) [] 12]),
  (12, [on digit [] 13]),
  (13, [on (byte 46) [] 14, on digit [] 13]),
  (14, [on digit [] 15]),
  (15, [on (byte 32) [.httpVersion] 16, on digit [] 15]),
  (16, [on digit [.mark] 17]),
  (17, [on (byte 32) [.statusCode] 18, on digit [] 17]),
  (18, [on lineByte [.mark] 19]),
  (19, [on (byte 10) [.reasonPhrase] 20, on (byte 13) [.reasonPhrase] 24, on lineByte [] 19]),
  (20, [on (byte 10) [.done] 120, on (byte 13) [] 3, on (letter 67) [.startField] 25,
    on (letter 84) [.startField] 44, on token [.startField] 21]),
  (21, [on (byte 58) [.writeField] 22, on token [] 21]),
  (22, [on (byte 10) [.startValue, .writeValue] 20, on (byte 13) [.startValue, .writeValue] 24,
    on space [.startValue] 22, on lineByte [.startValue] 23]),
  (23, [on (byte 10) [.writeValue] 20, on (byte 13) [.writeValue] 24, on lineByte [] 23]),
  (24, [on (byte 10) [] 20]),
  (25, [on (byte 58) [.writeField] 22, on (letter 79) [] 26, on token [] 21]),
  (26, [on (byte 58) [.writeField] 22, on (letter 78) [] 27, on token [] 21]),
  (27, [on (byte 58) [.writeField] 22, on (letter 78) [] 28, on (letter 84) [] 101,
    on token [] 21]),
  (28, [on (byte 58) [.writeField] 22, on (letter 69) [] 29, on token [] 21]),
  (29, [on (byte 58) [.writeField] 22, on (letter 67) [] 30, on token [] 21]),
  (30, [on (byte 58) [.writeField] 22, on (letter 84) [] 31, on token [] 21]),
  (31, [on (byte 58) [.writeField] 22, on (letter 73) [] 32, on token [] 21]),
  (32, [on (byte 58) [.writeField] 22, on (letter 79) [] 33, on token [] 21]),
  (33, [on (byte 58) [.writeField] 22, on (letter 78) [] 34, on token [] 21]),
  (34, [on (byte 58) [.writeField] 35, on token [] 21]),
  (35, [on (byte 10) [.startValue, .writeValue] 36, on (byte 13) [.startValue, .writeValue] 95,
    on (letter 67) [.startValue] 96, on space [.startValue] 35, on lineByte [.startValue] 23]),
  (36, [on (byte 10) [.done] 122, on (byte 13) [] 89, on (letter 67) [.startField] 90,
    on (letter 84) [.startField] 44, on space [] 37, on token [.startField] 21]),
  (37, [on (letter 67) [] 38, on space [] 37]),
  (38, [on (letter 76) [] 39]),
  (39, [on (letter 79) [] 40]),
  (40, [on (letter 83) [] 41]),
  (41, [on (letter 69) [] 42]),
  (42, [on (byte 10) [] 43, on (byte 13) [] 88]),
  (43, [on (byte 10) [.connectionClose, .done] 120, on (byte 13) [.connectionClose] 3,
    on (letter 67) [.connectionClose, .startField] 25,
    on (letter 84) [.connectionClose, .startField] 44,
    on token [.connectionClose, .startField] 21]),
  (44, [on (byte 58) [.writeField] 22, on (letter 82) [] 45, on token [] 21]),
  (45, [on (byte 58) [.writeField] 22, on (letter 65) [] 46, on token [] 21]),
  (46, [on (byte 58) [.writeField] 22, on (letter 78) [] 47, on token [] 21]),
  (47, [on (byte 58) [.writeField] 22, on (letter 83) [] 48, on token [] 21]),
  (48, [on (byte 58) [.writeField] 22, on (letter 70) [] 49, on token [] 21]),
  (49, [on (byte 58) [.writeField] 22, on (letter 69) [] 50, on token [] 21]),
  (50, [on (byte 58) [.writeField] 22, on (letter 82) [] 51, on token [] 21]),
  (51, [on (byte 45) [] 52, on (byte 58) [.writeField] 22, on token [] 21]),
  (52, [on (byte 58) [.writeField] 22, on (letter 69) [] 53, on token [] 21]),
  (53, [on (byte 58) [.writeField] 22, on (letter 78) [] 54, on token [] 21]),
  (54, [on (byte 58) [.writeField] 22, on (letter 67) [] 55, on token [] 21]),
  (55, [on (byte 58) [.writeField] 22, on (letter 79) [] 56, on token [] 21]),
  (56, [on (byte 58) [.writeField] 22, on (letter 68) [] 57, on token [] 21]),
  (57, [on (byte 58) [.writeField] 22, on (letter 73) [] 58, on token [] 21]),
  (58, [on (byte 58) [.writeField] 22, on (letter 78) [] 59, on token [] 21]),
  (59, [on (byte 58) [.writeField] 22, on (letter 71) [] 60, on token [] 21])]

def responseRows60 : List (Nat × List (Edge ResponseAction)) := [
  (60, [on (byte 58) [.writeField] 61, on token [] 21]),
  (61, [on (byte 10) [.startValue, .writeValue] 62, on (byte 13) [.startValue, .writeValue] 80,
    on (letter 67) [.startValue] 81, on space [.startValue] 61, on lineByte [.startValue] 23]),
  (62, [on (byte 10) [.done] 121, on (byte 13) [] 72,
    on (letter 67) [.startValue, .startField] 73, on (letter 84) [.startField] 44, on space [] 63,
    on token [.startField] 21]),
  (63, [on (letter 67) [.startValue] 64, on space [] 63]),
  (64, [on (letter 72) [] 65]),
  (65, [on (letter 85) [] 66]),
  (66, [on (letter 78) [] 67]),
  (67, [on (letter 75) [] 68]),
  (68, [on (letter 69) [] 69]),
  (69, [on (letter 68) [] 70]),
  (70, [on (byte 10) [.writeValue, .transChunked] 20, on (byte 13) [.writeValue] 71]),
  (71, [on (byte 10) [.transChunked] 20]),
  (72, [on (byte 10) [.done] 121, on (letter 67) [.startValue] 64, on space [] 63]),
  (73, [on (byte 58) [.writeField] 22, on (letter 72) [] 74, on (letter 79) [] 26,
    on token [] 21]),
  (74, [on (byte 58) [.writeField] 22, on (letter 85) [] 75, on token [] 21]),
  (75, [on (byte 58) [.writeField] 22, on (letter 78) [] 76, on token [] 21]),
  (76, [on (byte 58) [.writeField] 22, on (letter 75) [] 77, on token [] 21]),
  (77, [on (byte 58) [.writeField] 22, on (letter 69) [] 78, on token [] 21]),
  (78, [on (byte 58) [.writeField] 22, on (letter 68) [] 79, on token [] 21]),
  (79, [on (byte 10) [.writeValue, .transChunked] 20, on (byte 13) [.writeValue] 71,
    on (byte 58) [.writeField] 22, on token [] 21]),
  (80, [on (byte 10) [] 62, on (letter 67) [.startValue] 64, on space [] 63]),
  (81, [on (byte 10) [.writeValue] 20, on (byte 13) [.writeValue] 24, on (letter 72) [] 82,
    on lineByte [] 23]),
  (82, [on (byte 10) [.writeValue] 20, on (byte 13) [.writeValue] 24, on (letter 85) [] 83,
    on lineByte [] 23]),
  (83, [on (byte 10) [.writeValue] 20, on (byte 13) [.writeValue] 24, on (letter 78) [] 84,
    on lineByte [] 23]),
  (84, [on (byte 10) [.writeValue] 20, on (byte 13) [.writeValue] 24, on (letter 75) [] 85,
    on lineByte [] 23]),
  (85, [on (byte 10) [.writeValue] 20, on (byte 13) [.writeValue] 24, on (letter 69) [] 86,
    on lineByte [] 23]),
  (86, [on (byte 10) [.writeValue] 20, on (byte 13) [.writeValue] 24, on (letter 68) [] 87,
    on lineByte [] 23]),
  (87, [on (byte 10) [.writeValue, .transChunked] 20, on (byte 13) [.writeValue] 71,
    on lineByte [] 23]),
  (88, [on (byte 10) [] 43]),
  (89, [on (byte 10) [.done] 122, on (letter 67) [] 38, on space [] 37]),
  (90, [on (byte 58) [.writeField] 22, on (letter 76) [] 91, on (letter 79) [] 26,
    on token [] 21]),
  (91, [on (byte 58) [.writeField] 22, on (letter 79) [] 92, on token [] 21]),
  (92, [on (byte 58) [.writeField] 22, on (letter 83) [] 93, on token [] 21]),
  (93, [on (byte 58) [.writeField] 22, on (letter 69) [] 94, on token [] 21]),
  (94, [on (byte 10) [] 43, on (byte 13) [] 88, on (byte 58) [.writeField] 22, on token [] 21]),
  (95, [on (byte 10) [] 36, on (letter 67) [] 38, on space [] 37]),
  (96, [on (byte 10) [.writeValue] 20, on (byte 13) [.writeValue] 24, on (letter 76) [] 97,
    on lineByte [] 23]),
  (97, [on (byte 10) [.writeValue] 20, on (byte 13) [.writeValue] 24, on (letter 79) [] 98,
    on lineByte [] 23]),
  (98, [on (byte 10) [.writeValue] 20, on (byte 13) [.writeValue] 24, on (letter 83) [] 99,
    on lineByte [] 23]),
  (99, [on (byte 10) [.writeValue] 20, on (byte 13) [.writeValue] 24, on (letter 69) [] 100,
    on lineByte [] 23]),
  (100, [on (byte 10) [.writeValue] 43, on (byte 13) [.writeValue] 88, on lineByte [] 23]),
  (101, [on (byte 58) [.writeField] 22, on (letter 69) [] 102, on token [] 21]),
  (102, [on (byte 58) [.writeField] 22, on (letter 78) [] 103, on token [] 21]),
  (103, [on (byte 58) [.writeField] 22, on (letter 84) [] 104, on token [] 21]),
  (104, [on (byte 45) [] 105, on (byte 58) [.writeField] 22, on token [] 21]),
  (105, [on (byte 58) [.writeField] 22, on (letter 76) [] 106, on token [] 21]),
  (106, [on (byte 58) [.writeField] 22, on (letter 69) [] 107, on token [] 21]),
  (107, [on (byte 58) [.writeField] 22, on (letter 78) [] 108, on token [] 21]),
  (108, [on (byte 58) [.writeField] 22, on (letter 71) [] 109, on token [] 21]),
  (109, [on (byte 58) [.writeField] 22, on (letter 84) [] 110, on token [] 21]),
  (110, [on (byte 58) [.writeField] 22, on (letter 72) [] 111, on token [] 21]),
  (111, [on (byte 58) [.writeField] 112, on token [] 21]),
  (112, [on (byte 10) [.startValue, .writeValue] 113, on (byte 13) [.startValue, .writeValue] 118,
    on space [.startValue] 112, on digit [.startValue] 119, on lineByte [.startValue] 23]),
  (113, [on (byte 10) [.done] 123, on (byte 13) [] 116, on (letter 67) [.startField] 25,
    on (letter 84) [.startField] 44, on space [] 114, on digit [.startValue, .startField] 117,
    on token [.startField] 21]),
  (114, [on space [] 114, on digit [.startValue] 115]),
  (115, [on (byte 10) [.writeContentLen, .writeValue] 20,
    on (byte 13) [.writeContentLen, .writeValue] 24, on digit [] 115]),
  (116, [on (byte 10) [.done] 123, on space [] 114, on digit [.startValue] 115]),
  (117, [on (byte 10) [.writeContentLen, .writeValue] 20,
    on (byte 13) [.writeContentLen, .writeValue] 24, on (byte 58) [.writeField] 22,
    on digit [] 117, on token [] 21]),
  (118, [on (byte 10) [] 113, on space [] 114, on digit [.startValue] 115]),
  (119, [on (byte 10) [.writeContentLen, .writeValue] 20,
    on (byte 13) [.writeContentLen, .writeValue] 24, on digit [] 119, on lineByte [] 23])]

def responseRows120 : List (Nat × List (Edge ResponseAction)) := [
  (121, [on (letter 67) [.startValue] 64, on space [] 63]),
  (122, [on (letter 67) [] 38, on space [] 37]),
  (123, [on space [] 114, on digit [.startValue] 115])]

def responseRows : List (Nat × List (Edge ResponseAction)) :=
  responseRows0 ++ responseRows60 ++ responseRows120

/-- `httpclient_parser_start`, `httpclient_parser_first_final` and
`httpclient_parser_error`. -/
def responseStart : Nat := 1

def responseFirstFinal : Nat := 120

def responseError : Nat := 0

def responseScanner : Scanner ResponseAction where
  rows := responseRows
  stops action := action = .done
  error := responseError
  condition := false

end Http

end FiberNet
