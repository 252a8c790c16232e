import DatePhrase.Vocabulary.Table

/-! The vocabulary that comes with the library. -/
namespace DatePhrase.Vocabulary

def english : List (String × String) :=
  [
    ("now", "now|right now"), ("today", "today"), ("tomorrow", "tomorrow|tmrw"),
    ("yesterday", "yesterday"), ("in", "in"), ("this", "this"), ("next", "next|coming"),
    ("last", "last|previous"), ("and", "and"), ("at", "at|@"), ("from", "from"),
    ("to", "to|until|through|till"), ("sunday", "sunday|sun"), ("monday", "monday|mon"),
    ("tuesday", "tuesday|tue|tues"), ("wednesday", "wednesday|wed"),
    ("thursday", "thursday|thu|thur|thurs"), ("friday", "friday|fri"), ("saturday", "saturday|sat"),
    ("minute", "minutes|minute|mins|min|m"), ("hour", "hours|hour|hrs|hr|h"), ("day", "days|day|d"),
    ("week", "weeks|week|wks|wk|w"), ("month", "months|month|mo"), ("year", "years|year|yrs|yr|y"),
    ("ordinalSuffix", "st|nd|rd|th")
  ]

def french : List (String × String) :=
  [
    ("now", "maintenant"), ("today", "aujourd'hui"), ("tomorrow", "demain"), ("yesterday", "hier"),
    ("in", "dans|d'ici"), ("this", "ce|cette"), ("next", "prochain|prochaine|suivant|suivante"),
    ("last", "dernier|dernière|précédent|précédente"), ("and", "et"), ("at", "à|a"),
    ("from", "de|du"), ("to", "à|au|jusqu'à|jusqu'au"), ("sunday", "dimanche|dim"),
    ("monday", "lundi|lun"), ("tuesday", "mardi|mar"), ("wednesday", "mercredi|mer"),
    ("thursday", "jeudi|jeu"), ("friday", "vendredi|ven"), ("saturday", "samedi|sam"),
    ("minute", "minutes|minute|min|mn"), ("hour", "heures|heure|h"), ("day", "jours|jour|j"),
    ("week", "semaines|semaine|sem"), ("month", "mois"), ("year", "années|année|ans|an"),
    ("hourSuffix", "h"), ("ordinalSuffix", "er|ère|e|ème")
  ]

def german : List (String × String) :=
  [
    ("now", "jetzt"), ("today", "heute"), ("tomorrow", "morgen"), ("yesterday", "gestern"),
    ("in", "in"), ("this", "diese|diesen|dieser|diesem"),
    ("next", "nächste|nächsten|nächster|nächstes|kommende|kommenden"),
    ("last", "letzte|letzten|letzter|vergangene|vergangenen"), ("and", "und"), ("at", "um"),
    ("from", "von|ab"), ("to", "bis"), ("sunday", "sonntag|so"), ("monday", "montag|mo"),
    ("tuesday", "dienstag|di"), ("wednesday", "mittwoch|mi"), ("thursday", "donnerstag|do"),
    ("friday", "freitag|fr"), ("saturday", "samstag|sa"), ("minute", "minuten|minute|min"),
    ("hour", "stunden|stunde|std"), ("day", "tagen|tage|tag"), ("week", "wochen|woche"),
    ("month", "monaten|monate|monat"), ("year", "jahren|jahre|jahr"), ("hourSuffix", "uhr"),
    ("ordinalSuffix", ".")
  ]

def portuguese : List (String × String) :=
  [
    ("now", "agora"), ("today", "hoje"), ("tomorrow", "amanhã"), ("yesterday", "ontem"),
    ("in", "em|daqui a|dentro de"), ("this", "este|esta|neste|nesta"), ("next", "próximo|próxima"),
    ("last", "último|última|passado|passada"), ("and", "e"), ("at", "às|as|ao"),
    ("from", "de|desde"), ("to", "a|até"), ("sunday", "domingo|dom"),
    ("monday", "segunda-feira|segunda|seg"), ("tuesday", "terça-feira|terça|ter"),
    ("wednesday", "quarta-feira|quarta|qua"), ("thursday", "quinta-feira|quinta|qui"),
    ("friday", "sexta-feira|sexta|sex"), ("saturday", "sábado|sab"),
    ("minute", "minutos|minuto|min"), ("hour", "horas|hora|h"), ("day", "dias|dia"),
    ("week", "semanas|semana"), ("month", "meses|mês"), ("year", "anos|ano"), ("hourSuffix", "h"),
    ("ordinalSuffix", "º|ª|o")
  ]

def dutch : List (String × String) :=
  [
    ("now", "nu"), ("today", "vandaag"), ("tomorrow", "morgen"), ("yesterday", "gisteren"),
    ("in", "over|binnen"), ("this", "deze"), ("next", "volgende|komende"),
    ("last", "vorige|afgelopen"), ("and", "en"), ("at", "om"), ("from", "van|vanaf"),
    ("to", "tot|t/m"), ("sunday", "zondag|zo"), ("monday", "maandag|ma"), ("tuesday", "dinsdag|di"),
    ("wednesday", "woensdag|wo"), ("thursday", "donderdag|do"), ("friday", "vrijdag|vr"),
    ("saturday", "zaterdag|za"), ("minute", "minuten|minuut|min"), ("hour", "uren|uur"),
    ("day", "dagen|dag"), ("week", "weken|week"), ("month", "maanden|maand"),
    ("year", "jaren|jaar"), ("hourSuffix", "uur"), ("ordinalSuffix", "ste|de|e")
  ]

def japanese : List (String × String) :=
  [
    ("now", "今|いま"), ("today", "今日|きょう"), ("tomorrow", "明日|あした"), ("yesterday", "昨日|きのう"),
    ("this", "今週の"), ("next", "来週の|次の"), ("last", "先週の|前の"), ("sunday", "日曜日|日曜"),
    ("monday", "月曜日|月曜"), ("tuesday", "火曜日|火曜"), ("wednesday", "水曜日|水曜"), ("thursday", "木曜日|木曜"),
    ("friday", "金曜日|金曜"), ("saturday", "土曜日|土曜"), ("minute", "分"), ("hour", "時間"), ("day", "日"),
    ("week", "週間|週"), ("month", "ヶ月|か月"), ("year", "年"), ("hourSuffix", "時"), ("minuteSuffix", "分"),
    ("ordinalSuffix", "日")
  ]

/-- The languages at hand, by their codes. -/
def builtinLanguages : List (String × List (String × String)) :=
  [("en", english), ("fr", french), ("de", german), ("pt", portuguese), ("nl", dutch),
    ("ja", japanese)]

end DatePhrase.Vocabulary

namespace DatePhrase

/-- English, French, German, Portuguese, Dutch and Japanese. -/
def Table.builtin : Table :=
  Vocabulary.builtinLanguages.foldl (fun t (language, entries) =>
    entries.foldl (fun t (key, value) => t.insert language key value) t) .empty

end DatePhrase
