import EnvAudit.Secret.Rule

/-!
# The known shapes of secrets

The rules that a scan applies, in the order in which it reports their findings: vendor formats with
high confidence, values behind a telling word with medium confidence, and long runs of base64
characters with low confidence.
-/
namespace EnvAudit.SecretRule

open Pattern

/-! ## Parts of the shapes -/

/-- The capital letters. -/
def capitals : ClassItem := .range 'A' 'Z'

/-- The small letters. -/
def smallLetters : ClassItem := .range 'a' 'z'

/-- The digits of ASCII. -/
def digits : ClassItem := .range '0' '9'

/-- The single characters of a string as class items. -/
def chars (s : String) : List ClassItem := s.toList.map .char

/-- Letters and digits. -/
def alphanumerics : List ClassItem := [capitals, smallLetters, digits]

/-- A quote that may be there or not. -/
def quote? : Pattern := optional (oneOf (chars "'\""))

/-- White space that may be there or not. -/
def blanks : Pattern := atLeast 0 (oneOf [.blank])

/-- The characters of a password-like value. -/
def valueChars : List ClassItem :=
  alphanumerics ++ chars "!@#$%^&*()_+-=[]\x7b\x7d;':\"\\|,.<>/?"

/-- The characters of base64, without the padding. -/
def base64Chars : List ClassItem := alphanumerics ++ chars "+/"

/-- The characters of base64 in its form for addresses. -/
def base64UrlChars : List ClassItem := alphanumerics ++ chars "_-"

/-- An assignment: white space, one of the two signs, white space, perhaps a quote. -/
def assigned : Pattern := seqs [blanks, oneOf (chars ":="), blanks, quote?]

/-! ## The rules -/

/-- A key identifier of AWS. -/
def awsAccessKeyId : SecretRule :=
  make "AWS Access Key ID"
    (seqs [literal "AKIA".toList, times 16 (oneOf [digits, capitals])])
    .high
    "Rotate AWS credentials immediately via AWS IAM console. Use AWS Secrets Manager or environment variables."

/-- A secret key of AWS behind its customary name. -/
def awsSecretAccessKey : SecretRule :=
  make "AWS Secret Access Key"
    (seqs [literal "aws_secret_access_key".toList, blanks, literal "=".toList, blanks, quote?,
      times 40 (oneOf (alphanumerics ++ chars "/+=")), quote?])
    .high
    "Rotate AWS credentials immediately via AWS IAM console."

/-- A key for an interface of Google. -/
def googleApiKey : SecretRule :=
  make "Google API Key"
    (seqs [literal "AIza".toList, times 35 (oneOf base64UrlChars)])
    .high
    "Regenerate API key in Google Cloud Console and restrict by IP/domain."

/-- A token of Slack. -/
def slackToken : SecretRule :=
  make "Slack Token"
    (seqs [literal "xox".toList, oneOf (chars "pboa"), literal "-".toList,
      times 12 (oneOf [digits]), literal "-".toList, times 12 (oneOf [digits]),
      literal "-".toList, times 12 (oneOf [digits]), literal "-".toList,
      times 32 (oneOf [smallLetters, digits])])
    .high
    "Revoke token in Slack App settings and regenerate."

/-- A secret key of Stripe. -/
def stripeApiKey : SecretRule :=
  make "Stripe API Key"
    (seqs [literal "sk_live_".toList, atLeast 24 (oneOf alphanumerics)])
    .high
    "Roll the API key in Stripe Dashboard immediately."

/-- A restricted key of Stripe. -/
def stripeRestrictedKey : SecretRule :=
  make "Stripe Restricted API Key"
    (seqs [literal "rk_live_".toList, atLeast 24 (oneOf alphanumerics)])
    .high
    "Roll the API key in Stripe Dashboard immediately."

/-- A token of GitHub. -/
def githubToken : SecretRule :=
  make "GitHub Token"
    (seqs [literal "gh".toList, oneOf (chars "pousr"), literal "_".toList,
      atLeast 36 (oneOf (alphanumerics ++ chars "_"))])
    .high
    "Revoke token at github.com/settings/tokens and regenerate."

/-- A value that is called an API key. -/
def genericApiKey : SecretRule :=
  make "Generic API Key"
    (seqs [alts [
        seqs [literal "api".toList, optional (oneOf (chars "_-")), literal "key".toList],
        literal "apikey".toList,
        seqs [literal "api".toList, optional (oneOf (chars "_-")), literal "secret".toList]],
      assigned, atLeast 20 (oneOf base64UrlChars), quote?])
    .medium
    "Verify if this is a real API key. If so, rotate it with your provider."

/-- The words that announce a secret. -/
def secretWords : Pattern :=
  alts (["secret", "password", "passwd", "pwd"].map fun w => literal w.toList)

/-- A value that is called a secret or a password. -/
def genericSecret : SecretRule :=
  make "Generic Secret"
    (seqs [secretWords, assigned, atLeast 8 (oneOf valueChars), quote?])
    .medium
    "Verify if this is a real secret. If so, rotate it immediately."

/-- The opening line of a private key. -/
def privateKey : SecretRule :=
  make "Private Key (RSA)"
    (seqs [literal "-----BEGIN ".toList, optional (literal "RSA ".toList),
      literal "PRIVATE KEY-----".toList])
    .high
    "Regenerate the private key and update everywhere it is used. Never commit private keys."

/-- A signed token in three parts. -/
def jwtToken : SecretRule :=
  make "JWT Token"
    (seqs [literal "eyJ".toList, atLeast 10 (oneOf base64UrlChars), literal ".".toList,
      atLeast 10 (oneOf base64UrlChars), literal ".".toList, atLeast 10 (oneOf base64UrlChars)])
    .medium
    "If this is a real token, invalidate it and investigate how it was exposed."

/-- A long run of base64 characters. -/
def base64String : SecretRule :=
  make "Base64 High Entropy String"
    (seqs [.behind true 1 (oneOf base64Chars), atLeast 40 (oneOf base64Chars),
      .many 0 (some 2) true (literal "=".toList), .ahead true (oneOf base64Chars)])
    .low
    "Review this string - it may be encoded credentials or a token."

/-- A key of Heroku, which has the form of a universal identifier. -/
def herokuApiKey : SecretRule :=
  make "Heroku API Key"
    (seqs [times 8 hexDigit, literal "-".toList, times 4 hexDigit, literal "-".toList,
      times 4 hexDigit, literal "-".toList, times 4 hexDigit, literal "-".toList,
      times 12 hexDigit])
    .medium
    "Regenerate Heroku API key if this is legitimate."
where
  hexDigit : Pattern := oneOf [digits, .range 'a' 'f']

/-- A token behind the word that announces its bearer. -/
def bearerToken : SecretRule :=
  make "Generic Bearer Token"
    (seqs [literal "bearer".toList, atLeast 1 (oneOf [.blank]),
      atLeast 20 (oneOf (base64UrlChars ++ chars "."))])
    .medium
    "Verify and rotate this bearer token with your auth provider."

/-- The address of a database with its credentials. -/
def databaseConnection : SecretRule :=
  make "Database Connection String"
    (seqs [alts (["mongodb", "mysql", "postgresql", "postgres"].map fun w => literal w.toList),
      literal "://".toList, atLeast 1 (noneOf (.blank :: chars "'\""))])
    .high
    "Move connection string to environment variables. Rotate credentials if exposed."

/-- All rules, in the order of their findings. -/
def registry : List SecretRule :=
  [awsAccessKeyId, awsSecretAccessKey, googleApiKey, slackToken, stripeApiKey,
    stripeRestrictedKey, githubToken, genericApiKey, genericSecret, privateKey, jwtToken,
    base64String, herokuApiKey, bearerToken, databaseConnection]

/-- The rule with a label. -/
def ofLabel? (label : Text) : Option SecretRule := registry.find? fun r => r.label == label

end EnvAudit.SecretRule
