import FiberNet.Http.Grammar

/-! # The automaton of the request parser

The transitions of `http_parser_execute`, state by state. In a row the first edge
that has the byte counts; a byte without an edge leads to the error state.
-/

namespace FiberNet

namespace Http

inductive RequestAction
  | mark | startField | writeField | startValue | writeValue | requestMethod | requestUri
  | fragment | startQuery | queryString | httpVersion | requestPath | saveScheme | xml | json
  | done
  deriving DecidableEq

def requestRows0 : List (Nat × List (Edge RequestAction)) := [
  (1, [on (byte 60) [.mark] 194, on (byte 64) [.mark] 198, on methodByte [.mark] 2]),
  (2, [on (byte 32) [.requestMethod] 3, on methodByte [] 175]),
  (3, [on (byte 32) [.mark, .requestPath, .requestUri] 4,
    on (byte 35) [.mark, .requestPath, .requestUri] 20, on (byte 37) [.mark] 24,
    on (byte 47) [.mark] 33, on (byte 63) [.mark, .requestPath] 29,
    relaxed relaxedDelims [.mark] 19, on alpha [.mark] 173, on segmentByte [.mark] 19]),
  (4, [on (byte 72) [.mark] 5]),
  (5, [on (byte 84) [] 6]),
  (6, [on (byte 84) [] 7]),
  (7, [on (byte 80) [] 8]),
  (8, [on (byte 47) [] 9]),
  (9, [on (byte 49) [] 10]),
  (10, [on (byte 46) [] 11]),
  (11, [on (range 48 49) [] 12]),
  (12, [on (byte 10) [.httpVersion] 13, on (byte 13) [.httpVersion] 17]),
  (13, [on (byte 10) [.startField, .done] 348, on (byte 13) [.startField] 18,
    on fieldByte [.startField] 14]),
  (14, [on (byte 58) [.writeField] 15, on fieldByte [] 14]),
  (15, [on (byte 10) [.startValue, .writeValue] 13, on (byte 13) [.startValue, .writeValue] 17,
    on [(9, 9), (32, 32)] [.startValue] 15, on valueByte [.startValue] 16]),
  (16, [on (byte 10) [.writeValue] 13, on (byte 13) [.writeValue] 17, on valueByte [] 16]),
  (17, [on (byte 10) [] 13]),
  (18, [on (byte 10) [.done] 348, on (byte 58) [.writeField] 15, on fieldByte [] 14]),
  (19, [on (byte 32) [.requestPath, .requestUri] 4, on (byte 35) [.requestPath, .requestUri] 20,
    on (byte 37) [] 24, on (byte 47) [] 26, on (byte 63) [.requestPath] 29,
    relaxed relaxedDelims [] 19, on segmentByte [] 19]),
  (20, [on (byte 32) [.mark, .fragment] 4, on (byte 37) [.mark] 22,
    relaxed relaxedDelims [.mark] 21, on queryByte [.mark] 21]),
  (21, [on (byte 32) [.fragment] 4, on (byte 37) [] 22, relaxed relaxedDelims [] 21,
    on queryByte [] 21]),
  (22, [on xdigit [] 23]),
  (23, [on xdigit [] 21]),
  (24, [on xdigit [] 25]),
  (25, [on xdigit [] 19]),
  (26, [on (byte 32) [.requestPath, .requestUri] 4, on (byte 35) [.requestPath, .requestUri] 20,
    on (byte 37) [] 27, on (byte 63) [.requestPath] 29, relaxed relaxedDelims [] 26,
    on pathByte [] 26]),
  (27, [on xdigit [] 28]),
  (28, [on xdigit [] 26]),
  (29, [on (byte 32) [.startQuery, .queryString, .requestUri] 4,
    on (byte 35) [.startQuery, .queryString, .requestUri] 20, on (byte 37) [.startQuery] 31,
    relaxed relaxedDelims [.startQuery] 30, on queryByte [.startQuery] 30]),
  (30, [on (byte 32) [.queryString, .requestUri] 4, on (byte 35) [.queryString, .requestUri] 20,
    on (byte 37) [] 31, relaxed relaxedDelims [] 30, on queryByte [] 30]),
  (31, [on xdigit [] 32]),
  (32, [on xdigit [] 30]),
  (33, [on (byte 32) [.requestPath, .requestUri] 4, on (byte 35) [.requestPath, .requestUri] 20,
    on (byte 37) [] 27, on (byte 47) [] 34, on (byte 63) [.requestPath] 29,
    relaxed relaxedDelims [] 26, on pathByte [] 26]),
  (34, [on (byte 32) [.requestPath, .requestUri] 4, on (byte 35) [.requestPath, .requestUri] 20,
    on (byte 37) [] 36, on (byte 47) [] 26, on (byte 58) [] 38, on (byte 63) [.requestPath] 29,
    on (byte 64) [] 42, on (byte 91) [] 47, relaxed relaxedDelims [] 35, on regName [] 35]),
  (35, [on (byte 32) [.requestPath, .requestUri] 4, on (byte 35) [.requestPath, .requestUri] 20,
    on (byte 37) [] 36, on (byte 47) [] 26, on (byte 58) [] 38, on (byte 63) [.requestPath] 29,
    on (byte 64) [] 42, relaxed relaxedDelims [] 35, on regName [] 35]),
  (36, [on xdigit [] 37]),
  (37, [on xdigit [] 35]),
  (38, [on (byte 32) [.requestPath, .requestUri] 4, on (byte 35) [.requestPath, .requestUri] 20,
    on (byte 37) [] 40, on (byte 47) [] 26, on (byte 63) [.requestPath] 29, on (byte 64) [] 42,
    relaxed relaxedDelims [] 39, on digit [] 38, on userInfo [] 39]),
  (39, [on (byte 37) [] 40, on (byte 64) [] 42, relaxed relaxedDelims [] 39, on userInfo [] 39]),
  (40, [on xdigit [] 41]),
  (41, [on xdigit [] 39]),
  (42, [on (byte 32) [.requestPath, .requestUri] 4, on (byte 35) [.requestPath, .requestUri] 20,
    on (byte 37) [] 44, on (byte 47) [] 26, on (byte 58) [] 46, on (byte 63) [.requestPath] 29,
    on (byte 91) [] 47, relaxed relaxedDelims [] 43, on regName [] 43]),
  (43, [on (byte 32) [.requestPath, .requestUri] 4, on (byte 35) [.requestPath, .requestUri] 20,
    on (byte 37) [] 44, on (byte 47) [] 26, on (byte 58) [] 46, on (byte 63) [.requestPath] 29,
    relaxed relaxedDelims [] 43, on regName [] 43]),
  (44, [on xdigit [] 45]),
  (45, [on xdigit [] 43]),
  (46, [on (byte 32) [.requestPath, .requestUri] 4, on (byte 35) [.requestPath, .requestUri] 20,
    on (byte 47) [] 26, on (byte 63) [.requestPath] 29, on digit [] 46]),
  (47, [on (byte 6) [] 48, on (byte 58) [] 167, on (byte 118) [] 169, on xdigit [] 91]),
  (48, [on xdigit [] 49]),
  (49, [on (byte 58) [] 53, on xdigit [] 50]),
  (50, [on (byte 58) [] 53, on xdigit [] 51]),
  (51, [on (byte 58) [] 53, on xdigit [] 52]),
  (52, [on (byte 58) [] 53]),
  (53, [on (byte 49) [] 84, on (byte 50) [] 87, on digit [] 54, on xdigit [] 90]),
  (54, [on (byte 46) [] 55, on (byte 58) [] 80, on xdigit [] 77]),
  (55, [on (byte 49) [] 72, on (byte 50) [] 74, on digit [] 56]),
  (56, [on (byte 46) [] 57]),
  (57, [on (byte 49) [] 67, on (byte 50) [] 69, on digit [] 58]),
  (58, [on (byte 46) [] 59]),
  (59, [on (byte 49) [] 62, on (byte 50) [] 64, on digit [] 60])]

def requestRows60 : List (Nat × List (Edge RequestAction)) := [
  (60, [on (byte 93) [] 61]),
  (61, [on (byte 32) [.requestPath, .requestUri] 4, on (byte 35) [.requestPath, .requestUri] 20,
    on (byte 47) [] 26, on (byte 58) [] 46, on (byte 63) [.requestPath] 29]),
  (62, [on (byte 93) [] 61, on digit [] 63]),
  (63, [on (byte 93) [] 61, on digit [] 60]),
  (64, [on (byte 48) [] 65, on (byte 53) [] 66, on (byte 93) [] 61]),
  (65, [on digit [] 60]),
  (66, [on (byte 48) [] 60]),
  (67, [on (byte 46) [] 59, on digit [] 68]),
  (68, [on (byte 46) [] 59, on digit [] 58]),
  (69, [on (byte 46) [] 59, on (byte 48) [] 70, on (byte 53) [] 71]),
  (70, [on digit [] 58]),
  (71, [on (byte 48) [] 58]),
  (72, [on (byte 46) [] 57, on digit [] 73]),
  (73, [on (byte 46) [] 57, on digit [] 56]),
  (74, [on (byte 46) [] 57, on (byte 48) [] 75, on (byte 53) [] 76]),
  (75, [on digit [] 56]),
  (76, [on (byte 48) [] 56]),
  (77, [on (byte 58) [] 80, on xdigit [] 78]),
  (78, [on (byte 58) [] 80, on xdigit [] 79]),
  (79, [on (byte 58) [] 80]),
  (80, [on xdigit [] 81]),
  (81, [on (byte 93) [] 61, on xdigit [] 82]),
  (82, [on (byte 93) [] 61, on xdigit [] 83]),
  (83, [on (byte 93) [] 61, on xdigit [] 60]),
  (84, [on (byte 46) [] 55, on (byte 58) [] 80, on digit [] 85, on xdigit [] 77]),
  (85, [on (byte 46) [] 55, on (byte 58) [] 80, on digit [] 86, on xdigit [] 78]),
  (86, [on (byte 46) [] 55, on (byte 58) [] 80, on xdigit [] 79]),
  (87, [on (byte 46) [] 55, on (byte 48) [] 88, on (byte 53) [] 89, on (byte 58) [] 80,
    on xdigit [] 77]),
  (88, [on (byte 58) [] 80, on digit [] 86, on xdigit [] 78]),
  (89, [on (byte 48) [] 86, on (byte 58) [] 80, on xdigit [] 78]),
  (90, [on (byte 58) [] 80, on xdigit [] 77]),
  (91, [on (byte 58) [] 95, on xdigit [] 92]),
  (92, [on (byte 58) [] 95, on xdigit [] 93]),
  (93, [on (byte 58) [] 95, on xdigit [] 94]),
  (94, [on (byte 58) [] 95]),
  (95, [on (byte 58) [] 166, on xdigit [] 96]),
  (96, [on (byte 58) [] 100, on xdigit [] 97]),
  (97, [on (byte 58) [] 100, on xdigit [] 98]),
  (98, [on (byte 58) [] 100, on xdigit [] 99]),
  (99, [on (byte 58) [] 100]),
  (100, [on (byte 58) [] 165, on xdigit [] 101]),
  (101, [on (byte 58) [] 105, on xdigit [] 102]),
  (102, [on (byte 58) [] 105, on xdigit [] 103]),
  (103, [on (byte 58) [] 105, on xdigit [] 104]),
  (104, [on (byte 58) [] 105]),
  (105, [on (byte 58) [] 164, on xdigit [] 106]),
  (106, [on (byte 58) [] 110, on xdigit [] 107]),
  (107, [on (byte 58) [] 110, on xdigit [] 108]),
  (108, [on (byte 58) [] 110, on xdigit [] 109]),
  (109, [on (byte 58) [] 110]),
  (110, [on (byte 58) [] 163, on xdigit [] 111]),
  (111, [on (byte 58) [] 115, on xdigit [] 112]),
  (112, [on (byte 58) [] 115, on xdigit [] 113]),
  (113, [on (byte 58) [] 115, on xdigit [] 114]),
  (114, [on (byte 58) [] 115]),
  (115, [on (byte 58) [] 151, on xdigit [] 116]),
  (116, [on (byte 58) [] 120, on xdigit [] 117]),
  (117, [on (byte 58) [] 120, on xdigit [] 118]),
  (118, [on (byte 58) [] 120, on xdigit [] 119]),
  (119, [on (byte 58) [] 120])]

def requestRows120 : List (Nat × List (Edge RequestAction)) := [
  (120, [on (byte 58) [] 150, on xdigit [] 121]),
  (121, [on (byte 58) [] 125, on xdigit [] 122]),
  (122, [on (byte 58) [] 125, on xdigit [] 123]),
  (123, [on (byte 58) [] 125, on xdigit [] 124]),
  (124, [on (byte 58) [] 125]),
  (125, [on (byte 58) [] 126, on xdigit [] 121]),
  (126, [on (byte 49) [] 143, on (byte 50) [] 146, on (byte 93) [] 61, on (range 2 3) [] 48,
    on digit [] 127, on xdigit [] 149]),
  (127, [on (byte 46) [] 55, on (byte 58) [] 131, on (byte 93) [] 61, on xdigit [] 128]),
  (128, [on (byte 58) [] 131, on (byte 93) [] 61, on xdigit [] 129]),
  (129, [on (byte 58) [] 131, on (byte 93) [] 61, on xdigit [] 130]),
  (130, [on (byte 58) [] 131, on (byte 93) [] 61]),
  (131, [on (byte 49) [] 136, on (byte 50) [] 139, on digit [] 132, on xdigit [] 142]),
  (132, [on (byte 46) [] 55, on (byte 58) [] 80, on (byte 93) [] 61, on xdigit [] 133]),
  (133, [on (byte 58) [] 80, on (byte 93) [] 61, on xdigit [] 134]),
  (134, [on (byte 58) [] 80, on (byte 93) [] 61, on xdigit [] 135]),
  (135, [on (byte 58) [] 80, on (byte 93) [] 61]),
  (136, [on (byte 46) [] 55, on (byte 58) [] 80, on (byte 93) [] 61, on digit [] 137,
    on xdigit [] 133]),
  (137, [on (byte 46) [] 55, on (byte 58) [] 80, on (byte 93) [] 61, on digit [] 138,
    on xdigit [] 134]),
  (138, [on (byte 46) [] 55, on (byte 58) [] 80, on (byte 93) [] 61, on xdigit [] 135]),
  (139, [on (byte 46) [] 55, on (byte 48) [] 140, on (byte 53) [] 141, on (byte 58) [] 80,
    on (byte 93) [] 61, on xdigit [] 133]),
  (140, [on (byte 58) [] 80, on (byte 93) [] 61, on digit [] 138, on xdigit [] 134]),
  (141, [on (byte 48) [] 138, on (byte 58) [] 80, on (byte 93) [] 61, on xdigit [] 134]),
  (142, [on (byte 58) [] 80, on (byte 93) [] 61, on xdigit [] 133]),
  (143, [on (byte 46) [] 55, on (byte 58) [] 131, on (byte 93) [] 61, on digit [] 144,
    on xdigit [] 128]),
  (144, [on (byte 46) [] 55, on (byte 58) [] 131, on (byte 93) [] 61, on digit [] 145,
    on xdigit [] 129]),
  (145, [on (byte 46) [] 55, on (byte 58) [] 131, on (byte 93) [] 61, on xdigit [] 130]),
  (146, [on (byte 46) [] 55, on (byte 48) [] 147, on (byte 53) [] 148, on (byte 58) [] 131,
    on (byte 93) [] 61, on xdigit [] 128]),
  (147, [on (byte 58) [] 131, on (byte 93) [] 61, on digit [] 145, on xdigit [] 129]),
  (148, [on (byte 48) [] 145, on (byte 58) [] 131, on (byte 93) [] 61, on xdigit [] 129]),
  (149, [on (byte 58) [] 131, on (byte 93) [] 61, on xdigit [] 128]),
  (150, [on (byte 49) [] 143, on (byte 50) [] 146, on (range 2 3) [] 48, on digit [] 127,
    on xdigit [] 149]),
  (151, [on (byte 49) [] 156, on (byte 50) [] 159, on (range 2 3) [] 48, on digit [] 152,
    on xdigit [] 162]),
  (152, [on (byte 46) [] 55, on (byte 58) [] 131, on xdigit [] 153]),
  (153, [on (byte 58) [] 131, on xdigit [] 154]),
  (154, [on (byte 58) [] 131, on xdigit [] 155]),
  (155, [on (byte 58) [] 131]),
  (156, [on (byte 46) [] 55, on (byte 58) [] 131, on digit [] 157, on xdigit [] 153]),
  (157, [on (byte 46) [] 55, on (byte 58) [] 131, on digit [] 158, on xdigit [] 154]),
  (158, [on (byte 46) [] 55, on (byte 58) [] 131, on xdigit [] 155]),
  (159, [on (byte 46) [] 55, on (byte 48) [] 160, on (byte 53) [] 161, on (byte 58) [] 131,
    on xdigit [] 153]),
  (160, [on (byte 58) [] 131, on digit [] 158, on xdigit [] 154]),
  (161, [on (byte 48) [] 158, on (byte 58) [] 131, on xdigit [] 154]),
  (162, [on (byte 58) [] 131, on xdigit [] 153]),
  (163, [on (range 2 3) [] 48, on xdigit [] 49]),
  (164, [on (range 2 3) [] 48]),
  (165, [on (byte 3) [] 48]),
  (166, [on (byte 4) [] 48]),
  (167, [on (byte 58) [] 168]),
  (168, [on (byte 49) [] 143, on (byte 50) [] 146, on (byte 93) [] 61, on (range 2 5) [] 48,
    on digit [] 127, on xdigit [] 149]),
  (169, [on xdigit [] 170]),
  (170, [on (byte 46) [] 171, on xdigit [] 170]),
  (171, [relaxed relaxedDelims [] 172, on userInfo [] 172]),
  (172, [on (byte 93) [] 61, relaxed relaxedDelims [] 172, on userInfo [] 172]),
  (173, [on (byte 32) [.requestPath, .requestUri] 4, on (byte 35) [.requestPath, .requestUri] 20,
    on (byte 37) [] 24, on (byte 47) [] 26, on (byte 58) [.saveScheme] 174,
    on (byte 63) [.requestPath] 29, relaxed relaxedDelims [] 19,
    on [(33, 33), (36, 36), (38, 42), (44, 44), (59, 59), (61, 61), (64, 64), (95, 95), (126, 126)]
      [] 19,
    on regName [] 173]),
  (174, [on (byte 32) [.mark, .requestPath, .requestUri] 4,
    on (byte 35) [.mark, .requestPath, .requestUri] 20, on (byte 37) [.mark] 27,
    on (byte 47) [.mark] 33, on (byte 63) [.mark, .requestPath] 29,
    relaxed relaxedDelims [.mark] 26, on pathByte [.mark] 26]),
  (175, [on (byte 32) [.requestMethod] 3, on methodByte [] 176]),
  (176, [on (byte 32) [.requestMethod] 3, on methodByte [] 177]),
  (177, [on (byte 32) [.requestMethod] 3, on methodByte [] 178]),
  (178, [on (byte 32) [.requestMethod] 3, on methodByte [] 179]),
  (179, [on (byte 32) [.requestMethod] 3, on methodByte [] 180])]

def requestRows180 : List (Nat × List (Edge RequestAction)) := [
  (180, [on (byte 32) [.requestMethod] 3, on methodByte [] 181]),
  (181, [on (byte 32) [.requestMethod] 3, on methodByte [] 182]),
  (182, [on (byte 32) [.requestMethod] 3, on methodByte [] 183]),
  (183, [on (byte 32) [.requestMethod] 3, on methodByte [] 184]),
  (184, [on (byte 32) [.requestMethod] 3, on methodByte [] 185]),
  (185, [on (byte 32) [.requestMethod] 3, on methodByte [] 186]),
  (186, [on (byte 32) [.requestMethod] 3, on methodByte [] 187]),
  (187, [on (byte 32) [.requestMethod] 3, on methodByte [] 188]),
  (188, [on (byte 32) [.requestMethod] 3, on methodByte [] 189]),
  (189, [on (byte 32) [.requestMethod] 3, on methodByte [] 190]),
  (190, [on (byte 32) [.requestMethod] 3, on methodByte [] 191]),
  (191, [on (byte 32) [.requestMethod] 3, on methodByte [] 192]),
  (192, [on (byte 32) [.requestMethod] 3, on methodByte [] 193]),
  (193, [on (byte 32) [.requestMethod] 3]),
  (194, [on tagByte [] 195]),
  (195, [on [(9, 13), (32, 32), (47, 47), (62, 62)] [.requestPath] 196, on tagByte [] 195]),
  (196, [on (byte 62) [] 197, on anyByte [] 196]),
  (197, [on (byte 0) [.xml, .done] 349, on (byte 62) [] 197, on anyByte [] 196]),
  (198, [on (byte 32) [.requestPath] 199, on (byte 37) [] 203, on (byte 47) [] 208,
    relaxed relaxedDelims [] 202, on segmentByte [] 202]),
  (199, [on (byte 123) [.mark] 200]),
  (200, [on (byte 125) [] 201, on anyByte [] 200]),
  (201, [on (byte 0) [.json, .done] 349, on (byte 125) [] 201, on anyByte [] 200]),
  (202, [on (byte 32) [.requestPath] 199, on (byte 37) [] 203, on (byte 47) [] 205,
    relaxed relaxedDelims [] 202, on segmentByte [] 202]),
  (203, [on xdigit [] 204]),
  (204, [on xdigit [] 202]),
  (205, [on (byte 32) [.requestPath] 199, on (byte 37) [] 206, relaxed relaxedDelims [] 205,
    on pathByte [] 205]),
  (206, [on xdigit [] 207]),
  (207, [on xdigit [] 205]),
  (208, [on (byte 32) [.requestPath] 199, on (byte 37) [] 206, on (byte 47) [] 209,
    relaxed relaxedDelims [] 205, on pathByte [] 205]),
  (209, [on (byte 32) [.requestPath] 199, on (byte 37) [] 211, on (byte 47) [] 205,
    on (byte 58) [] 213, on (byte 64) [] 217, on (byte 91) [] 222, relaxed relaxedDelims [] 210,
    on regName [] 210]),
  (210, [on (byte 32) [.requestPath] 199, on (byte 37) [] 211, on (byte 47) [] 205,
    on (byte 58) [] 213, on (byte 64) [] 217, relaxed relaxedDelims [] 210, on regName [] 210]),
  (211, [on xdigit [] 212]),
  (212, [on xdigit [] 210]),
  (213, [on (byte 32) [.requestPath] 199, on (byte 37) [] 215, on (byte 47) [] 205,
    on (byte 64) [] 217, relaxed relaxedDelims [] 214, on digit [] 213, on userInfo [] 214]),
  (214, [on (byte 37) [] 215, on (byte 64) [] 217, relaxed relaxedDelims [] 214,
    on userInfo [] 214]),
  (215, [on xdigit [] 216]),
  (216, [on xdigit [] 214]),
  (217, [on (byte 32) [.requestPath] 199, on (byte 37) [] 219, on (byte 47) [] 205,
    on (byte 58) [] 221, on (byte 91) [] 222, relaxed relaxedDelims [] 218, on regName [] 218]),
  (218, [on (byte 32) [.requestPath] 199, on (byte 37) [] 219, on (byte 47) [] 205,
    on (byte 58) [] 221, relaxed relaxedDelims [] 218, on regName [] 218]),
  (219, [on xdigit [] 220]),
  (220, [on xdigit [] 218]),
  (221, [on (byte 32) [.requestPath] 199, on (byte 47) [] 205, on digit [] 221]),
  (222, [on (byte 6) [] 223, on (byte 58) [] 342, on (byte 118) [] 344, on xdigit [] 266]),
  (223, [on xdigit [] 224]),
  (224, [on (byte 58) [] 228, on xdigit [] 225]),
  (225, [on (byte 58) [] 228, on xdigit [] 226]),
  (226, [on (byte 58) [] 228, on xdigit [] 227]),
  (227, [on (byte 58) [] 228]),
  (228, [on (byte 49) [] 259, on (byte 50) [] 262, on digit [] 229, on xdigit [] 265]),
  (229, [on (byte 46) [] 230, on (byte 58) [] 255, on xdigit [] 252]),
  (230, [on (byte 49) [] 247, on (byte 50) [] 249, on digit [] 231]),
  (231, [on (byte 46) [] 232]),
  (232, [on (byte 49) [] 242, on (byte 50) [] 244, on digit [] 233]),
  (233, [on (byte 46) [] 234]),
  (234, [on (byte 49) [] 237, on (byte 50) [] 239, on digit [] 235]),
  (235, [on (byte 93) [] 236]),
  (236, [on (byte 32) [.requestPath] 199, on (byte 47) [] 205, on (byte 58) [] 221]),
  (237, [on (byte 93) [] 236, on digit [] 238]),
  (238, [on (byte 93) [] 236, on digit [] 235]),
  (239, [on (byte 48) [] 240, on (byte 53) [] 241, on (byte 93) [] 236])]

def requestRows240 : List (Nat × List (Edge RequestAction)) := [
  (240, [on digit [] 235]),
  (241, [on (byte 48) [] 235]),
  (242, [on (byte 46) [] 234, on digit [] 243]),
  (243, [on (byte 46) [] 234, on digit [] 233]),
  (244, [on (byte 46) [] 234, on (byte 48) [] 245, on (byte 53) [] 246]),
  (245, [on digit [] 233]),
  (246, [on (byte 48) [] 233]),
  (247, [on (byte 46) [] 232, on digit [] 248]),
  (248, [on (byte 46) [] 232, on digit [] 231]),
  (249, [on (byte 46) [] 232, on (byte 48) [] 250, on (byte 53) [] 251]),
  (250, [on digit [] 231]),
  (251, [on (byte 48) [] 231]),
  (252, [on (byte 58) [] 255, on xdigit [] 253]),
  (253, [on (byte 58) [] 255, on xdigit [] 254]),
  (254, [on (byte 58) [] 255]),
  (255, [on xdigit [] 256]),
  (256, [on (byte 93) [] 236, on xdigit [] 257]),
  (257, [on (byte 93) [] 236, on xdigit [] 258]),
  (258, [on (byte 93) [] 236, on xdigit [] 235]),
  (259, [on (byte 46) [] 230, on (byte 58) [] 255, on digit [] 260, on xdigit [] 252]),
  (260, [on (byte 46) [] 230, on (byte 58) [] 255, on digit [] 261, on xdigit [] 253]),
  (261, [on (byte 46) [] 230, on (byte 58) [] 255, on xdigit [] 254]),
  (262, [on (byte 46) [] 230, on (byte 48) [] 263, on (byte 53) [] 264, on (byte 58) [] 255,
    on xdigit [] 252]),
  (263, [on (byte 58) [] 255, on digit [] 261, on xdigit [] 253]),
  (264, [on (byte 48) [] 261, on (byte 58) [] 255, on xdigit [] 253]),
  (265, [on (byte 58) [] 255, on xdigit [] 252]),
  (266, [on (byte 58) [] 270, on xdigit [] 267]),
  (267, [on (byte 58) [] 270, on xdigit [] 268]),
  (268, [on (byte 58) [] 270, on xdigit [] 269]),
  (269, [on (byte 58) [] 270]),
  (270, [on (byte 58) [] 341, on xdigit [] 271]),
  (271, [on (byte 58) [] 275, on xdigit [] 272]),
  (272, [on (byte 58) [] 275, on xdigit [] 273]),
  (273, [on (byte 58) [] 275, on xdigit [] 274]),
  (274, [on (byte 58) [] 275]),
  (275, [on (byte 58) [] 340, on xdigit [] 276]),
  (276, [on (byte 58) [] 280, on xdigit [] 277]),
  (277, [on (byte 58) [] 280, on xdigit [] 278]),
  (278, [on (byte 58) [] 280, on xdigit [] 279]),
  (279, [on (byte 58) [] 280]),
  (280, [on (byte 58) [] 339, on xdigit [] 281]),
  (281, [on (byte 58) [] 285, on xdigit [] 282]),
  (282, [on (byte 58) [] 285, on xdigit [] 283]),
  (283, [on (byte 58) [] 285, on xdigit [] 284]),
  (284, [on (byte 58) [] 285]),
  (285, [on (byte 58) [] 338, on xdigit [] 286]),
  (286, [on (byte 58) [] 290, on xdigit [] 287]),
  (287, [on (byte 58) [] 290, on xdigit [] 288]),
  (288, [on (byte 58) [] 290, on xdigit [] 289]),
  (289, [on (byte 58) [] 290]),
  (290, [on (byte 58) [] 326, on xdigit [] 291]),
  (291, [on (byte 58) [] 295, on xdigit [] 292]),
  (292, [on (byte 58) [] 295, on xdigit [] 293]),
  (293, [on (byte 58) [] 295, on xdigit [] 294]),
  (294, [on (byte 58) [] 295]),
  (295, [on (byte 58) [] 325, on xdigit [] 296]),
  (296, [on (byte 58) [] 300, on xdigit [] 297]),
  (297, [on (byte 58) [] 300, on xdigit [] 298]),
  (298, [on (byte 58) [] 300, on xdigit [] 299]),
  (299, [on (byte 58) [] 300])]

def requestRows300 : List (Nat × List (Edge RequestAction)) := [
  (300, [on (byte 58) [] 301, on xdigit [] 296]),
  (301, [on (byte 49) [] 318, on (byte 50) [] 321, on (byte 93) [] 236, on (range 2 3) [] 223,
    on digit [] 302, on xdigit [] 324]),
  (302, [on (byte 46) [] 230, on (byte 58) [] 306, on (byte 93) [] 236, on xdigit [] 303]),
  (303, [on (byte 58) [] 306, on (byte 93) [] 236, on xdigit [] 304]),
  (304, [on (byte 58) [] 306, on (byte 93) [] 236, on xdigit [] 305]),
  (305, [on (byte 58) [] 306, on (byte 93) [] 236]),
  (306, [on (byte 49) [] 311, on (byte 50) [] 314, on digit [] 307, on xdigit [] 317]),
  (307, [on (byte 46) [] 230, on (byte 58) [] 255, on (byte 93) [] 236, on xdigit [] 308]),
  (308, [on (byte 58) [] 255, on (byte 93) [] 236, on xdigit [] 309]),
  (309, [on (byte 58) [] 255, on (byte 93) [] 236, on xdigit [] 310]),
  (310, [on (byte 58) [] 255, on (byte 93) [] 236]),
  (311, [on (byte 46) [] 230, on (byte 58) [] 255, on (byte 93) [] 236, on digit [] 312,
    on xdigit [] 308]),
  (312, [on (byte 46) [] 230, on (byte 58) [] 255, on (byte 93) [] 236, on digit [] 313,
    on xdigit [] 309]),
  (313, [on (byte 46) [] 230, on (byte 58) [] 255, on (byte 93) [] 236, on xdigit [] 310]),
  (314, [on (byte 46) [] 230, on (byte 48) [] 315, on (byte 53) [] 316, on (byte 58) [] 255,
    on (byte 93) [] 236, on xdigit [] 308]),
  (315, [on (byte 58) [] 255, on (byte 93) [] 236, on digit [] 313, on xdigit [] 309]),
  (316, [on (byte 48) [] 313, on (byte 58) [] 255, on (byte 93) [] 236, on xdigit [] 309]),
  (317, [on (byte 58) [] 255, on (byte 93) [] 236, on xdigit [] 308]),
  (318, [on (byte 46) [] 230, on (byte 58) [] 306, on (byte 93) [] 236, on digit [] 319,
    on xdigit [] 303]),
  (319, [on (byte 46) [] 230, on (byte 58) [] 306, on (byte 93) [] 236, on digit [] 320,
    on xdigit [] 304]),
  (320, [on (byte 46) [] 230, on (byte 58) [] 306, on (byte 93) [] 236, on xdigit [] 305]),
  (321, [on (byte 46) [] 230, on (byte 48) [] 322, on (byte 53) [] 323, on (byte 58) [] 306,
    on (byte 93) [] 236, on xdigit [] 303]),
  (322, [on (byte 58) [] 306, on (byte 93) [] 236, on digit [] 320, on xdigit [] 304]),
  (323, [on (byte 48) [] 320, on (byte 58) [] 306, on (byte 93) [] 236, on xdigit [] 304]),
  (324, [on (byte 58) [] 306, on (byte 93) [] 236, on xdigit [] 303]),
  (325, [on (byte 49) [] 318, on (byte 50) [] 321, on (range 2 3) [] 223, on digit [] 302,
    on xdigit [] 324]),
  (326, [on (byte 49) [] 331, on (byte 50) [] 334, on (range 2 3) [] 223, on digit [] 327,
    on xdigit [] 337]),
  (327, [on (byte 46) [] 230, on (byte 58) [] 306, on xdigit [] 328]),
  (328, [on (byte 58) [] 306, on xdigit [] 329]),
  (329, [on (byte 58) [] 306, on xdigit [] 330]),
  (330, [on (byte 58) [] 306]),
  (331, [on (byte 46) [] 230, on (byte 58) [] 306, on digit [] 332, on xdigit [] 328]),
  (332, [on (byte 46) [] 230, on (byte 58) [] 306, on digit [] 333, on xdigit [] 329]),
  (333, [on (byte 46) [] 230, on (byte 58) [] 306, on xdigit [] 330]),
  (334, [on (byte 46) [] 230, on (byte 48) [] 335, on (byte 53) [] 336, on (byte 58) [] 306,
    on xdigit [] 328]),
  (335, [on (byte 58) [] 306, on digit [] 333, on xdigit [] 329]),
  (336, [on (byte 48) [] 333, on (byte 58) [] 306, on xdigit [] 329]),
  (337, [on (byte 58) [] 306, on xdigit [] 328]),
  (338, [on (range 2 3) [] 223, on xdigit [] 224]),
  (339, [on (range 2 3) [] 223]),
  (340, [on (byte 3) [] 223]),
  (341, [on (byte 4) [] 223]),
  (342, [on (byte 58) [] 343]),
  (343, [on (byte 49) [] 318, on (byte 50) [] 321, on (byte 93) [] 236, on (range 2 5) [] 223,
    on digit [] 302, on xdigit [] 324]),
  (344, [on xdigit [] 345]),
  (345, [on (byte 46) [] 346, on xdigit [] 345]),
  (346, [relaxed relaxedDelims [] 347, on userInfo [] 347]),
  (347, [on (byte 93) [] 236, relaxed relaxedDelims [] 347, on userInfo [] 347]),
  (348, [on (byte 58) [.writeField] 15, on fieldByte [] 14])]

def requestRows : List (Nat × List (Edge RequestAction)) :=
  requestRows0 ++ requestRows60 ++ requestRows120 ++ requestRows180 ++ requestRows240 ++
    requestRows300

/-- `http_parser_start`, `http_parser_first_final` and `http_parser_error`. -/
def requestStart : Nat := 1

def requestFirstFinal : Nat := 348

def requestError : Nat := 0

/-- The automaton under a value of `uri_relaxed`. -/
def requestScanner (uriRelaxed : Bool) : Scanner RequestAction where
  rows := requestRows
  stops action := action = .done
  error := requestError
  condition := uriRelaxed

end Http

end FiberNet
